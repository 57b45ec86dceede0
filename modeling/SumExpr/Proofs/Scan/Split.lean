import SumExpr.Proofs.Scan.Grammar

/-! # Splitting a text at an operator

Behind an operator the scanner is in another state than at the start, and yet every character takes
it to the same state as from there. So what stands behind an operator is read like a text of its
own, and an operator may be chosen anywhere to split a text in two. -/
namespace SumExpr

namespace State

/-- The two states differ only in whether a text may end there. -/
theorem next_operator (y : Symbol) : State.operator.next y = State.start.next y := by
  cases y <;> rfl

theorem next_of_operator_symbol {y : Symbol} (h : y = .plus ∨ y = .minus) (s : State) :
    s.next y = if s = .digit then .operator else .error := by
  rcases h with rfl | rfl <;> cases s <;> rfl

end State

namespace Scan

/-- What follows an operator is read like a text of its own, unless nothing follows. -/
theorem run_operator {text : Text} (h : text ≠ []) : run .operator text = finalState text := by
  obtain ⟨c, rest, rfl⟩ := List.exists_cons_of_ne_nil h
  rw [run_cons, State.next_operator, ← run_cons]
  rfl

end Scan

theorem finalState_append_operator {o : Char} (ho : o ∈ ['+', '-']) (u v : Text) :
    finalState (u ++ o :: v) =
      if finalState u = .digit then Scan.run .operator v else .error := by
  have hsymbol := Symbol.ofChar_eq_plus_or_minus.mpr ho
  rw [finalState_append, Scan.run_cons, State.next_of_operator_symbol hsymbol]
  split
  · rfl
  · exact Scan.run_error v

/-- In the state behind a digit an operand is complete: the text is an expression, and no operator
is left dangling. -/
theorem finalState_eq_digit_iff_complete {text : Text} :
    finalState text = .digit ↔ isValid text = true ∧ ¬ Grammar.EndsIn ['+', '-'] text := by
  have hoperator : isValid text = true → (finalState text = .operator ↔
      Grammar.EndsIn ['+', '-'] text) := by
    intro h
    rw [Grammar.finalState_eq_operator_iff, ← Grammar.isValid_iff, and_iff_right h]
  constructor
  · intro h
    have hvalid : isValid text = true := by rw [isValid_eq_accepting, h]; rfl
    rw [← hoperator hvalid, h]
    exact ⟨hvalid, by simp⟩
  · intro h
    obtain ⟨hvalid, hend⟩ := h
    rw [← hoperator hvalid] at hend
    rw [isValid_eq_accepting, State.accepting_iff] at hvalid
    exact hvalid.resolve_right hend

/-- **A text may be split at any operator.** If the part before it ends with a digit that belongs to
an expression, the whole is scanned as the part behind it, or the operator dangles if nothing is
there; any other part before it makes a mistake of the operator. So the whole is an expression just
if the part before the operator is one that does not end in an operator itself, and the part behind
is empty or an expression. -/
theorem split_at_operator {o : Char} (ho : o ∈ ['+', '-']) (u v : Text) :
    (finalState u = .digit →
      (v ≠ [] → scan (u ++ o :: v) = scan v) ∧
      (v = [] → finalState (u ++ o :: v) = .operator)) ∧
    (finalState u ≠ .digit → finalState (u ++ o :: v) = .error) ∧
    (isValid (u ++ o :: v) = true ↔
      isValid u = true ∧ ¬ Grammar.EndsIn ['+', '-'] u ∧ (v = [] ∨ isValid v = true)) := by
  have hsplit := finalState_append_operator ho u v
  refine ⟨?_, ?_, ?_⟩
  · intro hu
    rw [if_pos hu] at hsplit
    refine ⟨?_, ?_⟩
    · intro hv
      rw [Scan.run_operator hv] at hsplit
      rw [scan, scan, hsplit]
    · intro hv
      rw [hsplit, hv]
      rfl
  · intro hu
    rw [hsplit, if_neg hu]
  · rw [← and_assoc, ← finalState_eq_digit_iff_complete, isValid_eq_accepting, hsplit]
    by_cases hu : finalState u = .digit
    · rw [if_pos hu, and_iff_right hu]
      by_cases hv : v = []
      · subst hv
        exact iff_of_true rfl (.inl rfl)
      · rw [Scan.run_operator hv, or_iff_right hv, isValid_eq_accepting]
    · rw [if_neg hu]
      exact iff_of_false (by decide) fun h => hu h.1

/-- The second operator splits this text into an expression and a rest with a mistake in it; the
third stands behind a part that ends in an operator. -/
theorem split_at_operator_sample :
    scan ("10-2".toList ++ '+' :: "3+-4".toList) = scan "3+-4".toList ∧
    finalState ("10-2+3+".toList ++ '-' :: "4".toList) = .error :=
  ⟨((split_at_operator (by decide) "10-2".toList "3+-4".toList).1 (by decide)).1 (by decide),
    (split_at_operator (by decide) "10-2+3+".toList "4".toList).2.1 (by decide)⟩

end SumExpr
