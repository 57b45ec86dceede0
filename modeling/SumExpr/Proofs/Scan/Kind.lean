import Mathlib.Data.List.Forall2
import SumExpr.Log
import SumExpr.Proofs.Scan.Split

/-! # The scanner sees kinds of characters

There are three kinds: digits, operators, and all other characters. Characters of one kind have the
same successors in every state (`Alike.next_eq`), so texts that agree in their kinds pass through
the same states. No two kinds fall together: for characters of different kinds there is a text in
which one may not stand for the other. -/
namespace SumExpr

/-- Two characters of one kind. -/
inductive Alike (c d : Char) : Prop
  | digits (hc : c ∈ Symbol.digits) (hd : d ∈ Symbol.digits)
  | operators (hc : c ∈ ['+', '-']) (hd : d ∈ ['+', '-'])
  | others (hc : c ∉ Symbol.digits ∧ c ∉ ['+', '-']) (hd : d ∉ Symbol.digits ∧ d ∉ ['+', '-'])

theorem Symbol.ofChar_eq_other {c : Char} (h : c ∉ digits ∧ c ∉ ['+', '-']) :
    ofChar c = .other := by
  rw [← ofChar_eq_digit, ← ofChar_eq_plus_or_minus, not_or] at h
  cases hy : ofChar c with
  | digit => exact absurd hy h.1
  | plus => exact absurd hy h.2.1
  | minus => exact absurd hy h.2.2
  | other => rfl

/-! ## Texts that agree in their kinds -/

/-- The two operators have different symbols, but no state tells them apart. -/
theorem Alike.next_eq {c d : Char} (h : Alike c d) (s : State) :
    s.next (.ofChar c) = s.next (.ofChar d) := by
  cases h with
  | digits hc hd => rw [Symbol.ofChar_eq_digit.mpr hc, Symbol.ofChar_eq_digit.mpr hd]
  | operators hc hd =>
    rw [State.next_of_operator_symbol (Symbol.ofChar_eq_plus_or_minus.mpr hc),
      State.next_of_operator_symbol (Symbol.ofChar_eq_plus_or_minus.mpr hd)]
  | others hc hd => rw [Symbol.ofChar_eq_other hc, Symbol.ofChar_eq_other hd]

section Texts

variable {u v : Text} (h : List.Forall₂ Alike u v)

include h

theorem states_trace_eq (s : State) :
    (Scan.trace s u).map Prod.snd = (Scan.trace s v).map Prod.snd := by
  induction h generalizing s with
  | nil => rfl
  | cons hc _ ih => rw [Scan.trace, Scan.trace, List.map_cons, List.map_cons, hc.next_eq, ih]

theorem run_eq_of_alike (s : State) : Scan.run s u = Scan.run s v := by
  induction h generalizing s with
  | nil => rfl
  | cons hc _ ih => rw [Scan.run_cons, Scan.run_cons, hc.next_eq, ih]

theorem scan_eq_of_alike : scan u = scan v := by
  rw [scan, scan, finalState, finalState, run_eq_of_alike h]

end Texts

/-! ## Characters that may stand for one another -/

theorem alike_refl (c : Char) : Alike c c := by
  by_cases hdigit : c ∈ Symbol.digits
  · exact .digits hdigit hdigit
  · by_cases hoperator : c ∈ ['+', '-']
    · exact .operators hoperator hoperator
    · exact .others ⟨hdigit, hoperator⟩ ⟨hdigit, hoperator⟩

theorem forall₂_alike_replace {c d : Char} (h : Alike c d) (u w : Text) :
    List.Forall₂ Alike (u ++ c :: w) (u ++ d :: w) := by
  have hself : ∀ t : Text, List.Forall₂ Alike t t := fun t =>
    List.forall₂_same.mpr fun c _ => alike_refl c
  exact List.rel_append (hself u) (.cons h (hself w))

/-- On its own a character is an operand just if it is a digit. -/
theorem finalState_singleton_eq_digit {c : Char} :
    finalState [c] = .digit ↔ c ∈ Symbol.digits := by
  have hstep := finalState_append_singleton [] c
  rw [List.nil_append] at hstep
  rw [hstep, State.next_eq_digit, Symbol.ofChar_eq_digit]
  exact and_iff_right (by decide)

/-- Behind a digit a character leaves an operand to come just if it is an operator. -/
theorem finalState_behind_digit_eq_operator {c : Char} :
    finalState ['0', c] = .operator ↔ c ∈ ['+', '-'] := by
  have hstep := finalState_append_singleton ['0'] c
  rw [List.singleton_append] at hstep
  rw [hstep, State.next_eq_operator, Symbol.ofChar_eq_plus_or_minus]
  exact and_iff_right (by decide)

/-- Two texts tell the kinds apart: the character alone, and the character behind a digit. -/
theorem alike_of_interchangeable {c d : Char}
    (h : ∀ u w : Text, scan (u ++ c :: w) = scan (u ++ d :: w)) : Alike c d := by
  have hstate : ∀ u : Text, finalState (u ++ [c]) = finalState (u ++ [d]) := fun u =>
    congrArg ScanResult.finalState (h u [])
  have hdigit : c ∈ Symbol.digits ↔ d ∈ Symbol.digits := by
    rw [← finalState_singleton_eq_digit, ← finalState_singleton_eq_digit]
    exact iff_of_eq (congrArg (· = State.digit) (hstate []))
  have hoperator : c ∈ ['+', '-'] ↔ d ∈ ['+', '-'] := by
    rw [← finalState_behind_digit_eq_operator, ← finalState_behind_digit_eq_operator]
    exact iff_of_eq (congrArg (· = State.operator) (hstate ['0']))
  by_cases hc : c ∈ Symbol.digits
  · exact .digits hc (hdigit.mp hc)
  · by_cases hc' : c ∈ ['+', '-']
    · exact .operators hc' (hoperator.mp hc')
    · exact .others ⟨hc, hc'⟩ ⟨hdigit.not.mp hc, hoperator.not.mp hc'⟩

/-- **The scanner sees nothing of a character but its kind.** Texts of one length that have at each
place characters of the same kind have the same result and the same record, and pass through the
same states place by place. One character may stand for another in every text just if both are
digits, both are operators, or neither is one of these. -/
theorem only_kinds_seen :
    (∀ u v : Text, List.Forall₂ Alike u v →
      scan u = scan v ∧ Log.ofScan u = Log.ofScan v ∧
      (Scan.trace .initial u).map Prod.snd = (Scan.trace .initial v).map Prod.snd) ∧
    ∀ c d : Char, Alike c d ↔ ∀ u w : Text, scan (u ++ c :: w) = scan (u ++ d :: w) := by
  refine ⟨?_, ?_⟩
  · intro u v h
    have hscan := scan_eq_of_alike h
    refine ⟨hscan, ?_, states_trace_eq h .initial⟩
    rw [Log.ofScan, Log.ofScan, h.length_eq, hscan]
  · intro c d
    refine ⟨?_, alike_of_interchangeable⟩
    intro h u w
    exact scan_eq_of_alike (forall₂_alike_replace h u w)

/-- A digit of another script is no digit here, and might as well be a space. -/
theorem only_kinds_seen_foreign_digit :
    List.Forall₂ Alike "12+٣".toList "90- ".toList ∧ scan "12+٣".toList = scan "90- ".toList ∧
      ¬ Alike '3' '٣' := by
  have halike : List.Forall₂ Alike "12+٣".toList "90- ".toList :=
    .cons (.digits (by decide) (by decide)) <| .cons (.digits (by decide) (by decide)) <|
      .cons (.operators (by decide) (by decide)) <| .cons (.others (by decide) (by decide)) .nil
  refine ⟨halike, (only_kinds_seen.1 _ _ halike).1, ?_⟩
  intro h
  exact absurd ((only_kinds_seen.2 '3' '٣').mp h [] []) (by decide)

end SumExpr
