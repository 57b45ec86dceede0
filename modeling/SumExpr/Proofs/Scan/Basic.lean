import SumExpr.Scan

/-! # Steps of the scanner

Which symbol and which state lead to a state, and how a run goes on behind a text. -/
namespace SumExpr

/-! ## Symbols of characters -/

namespace Symbol

theorem ofChar_eq_digit {c : Char} : ofChar c = .digit ↔ c ∈ digits := by
  by_cases hdigit : c ∈ digits
  · simp [ofChar, hdigit]
  · simp only [ofChar, hdigit, if_false, operators, List.lookup_cons, List.lookup_nil, iff_false]
    split
    · simp
    · split <;> simp

theorem ofChar_eq_plus_or_minus {c : Char} :
    ofChar c = .plus ∨ ofChar c = .minus ↔ c ∈ ['+', '-'] := by
  by_cases hplus : c = '+'
  · subst hplus
    exact iff_of_true (.inl rfl) (by simp)
  by_cases hminus : c = '-'
  · subst hminus
    exact iff_of_true (.inr rfl) (by simp)
  have hnone : operators.lookup c = none := by simp [operators, hplus, hminus]
  have hnot : c ∉ ['+', '-'] := by simp [hplus, hminus]
  rw [ofChar, hnone, Option.getD_none]
  split
  · exact iff_of_false (by simp) hnot
  · exact iff_of_false (by simp) hnot

end Symbol

/-! ## Successors -/

namespace State

theorem next_ne_start (s : State) (y : Symbol) : s.next y ≠ .start := by
  cases s <;> cases y <;> simp [next]

theorem next_eq_digit {s : State} {y : Symbol} :
    s.next y = .digit ↔ s ≠ .error ∧ y = .digit := by
  cases s <;> cases y <;> simp [next]

theorem next_eq_operator {s : State} {y : Symbol} :
    s.next y = .operator ↔ s = .digit ∧ (y = .plus ∨ y = .minus) := by
  cases s <;> cases y <;> simp [next]

/-- In an accepting state the last symbol says which of the two it is. -/
theorem next_eq_digit_iff_accepting {s : State} {y : Symbol} :
    s.next y = .digit ↔ (s.next y).accepting = true ∧ y = .digit := by
  cases s <;> cases y <;> simp [next, accepting]

theorem next_eq_operator_iff_accepting {s : State} {y : Symbol} :
    s.next y = .operator ↔ (s.next y).accepting = true ∧ (y = .plus ∨ y = .minus) := by
  cases s <;> cases y <;> simp [next, accepting]

theorem accepting_iff {s : State} : s.accepting = true ↔ s = .digit ∨ s = .operator := by
  cases s <;> simp [accepting]

theorem ne_error_iff {s : State} : s ≠ .error ↔ s = .start ∨ s = .digit ∨ s = .operator := by
  cases s <;> simp

end State

/-! ## Runs -/

namespace Scan

theorem run_cons (s : State) (c : Char) (rest : Text) :
    run s (c :: rest) = run (s.next (.ofChar c)) rest := by
  rw [run_eq_foldl, run_eq_foldl, List.foldl_cons]

theorem run_error (text : Text) : run .error text = .error := by
  rw [run_eq_foldl, foldl_of_absorbing rfl]

end Scan

theorem finalState_append (u v : Text) : finalState (u ++ v) = Scan.run (finalState u) v := by
  simp only [finalState, Scan.run_eq_foldl, List.foldl_append]

theorem finalState_append_singleton (text : Text) (c : Char) :
    finalState (text ++ [c]) = (finalState text).next (.ofChar c) := by
  rw [finalState_append, Scan.run_cons]
  rfl

theorem isValid_eq_accepting (text : Text) : isValid text = (finalState text).accepting := rfl

end SumExpr
