import Mathlib.Computability.RegularExpressions
import SumExpr.Proofs.Scan.Basic

/-! # The language of the scanner

A sum expression is operands joined by operators, each operand a run of ASCII digits, and one more
operator may dangle at its end: `[0-9]+([+-][0-9]+)*[+-]?`. Read from their ends, the texts that end
in a digit and those that end in an operator satisfy a right linear system of equations
(`reaching_digit`, `reaching_operator`), and its right sides are the steps of the scanner. So
`reaching`, which names the texts that lead to each state, is what every step preserves. -/
namespace SumExpr.Grammar
open scoped Computability

/-! ## The grammar -/

/-- A text of one character, which is one of `cs`. -/
def oneOf (cs : List Char) : RegularExpression Char := (cs.map .char).sum

def digit : RegularExpression Char := oneOf ['0', '1', '2', '3', '4', '5', '6', '7', '8', '9']

def operator : RegularExpression Char := oneOf ['+', '-']

def oneOrMore (r : RegularExpression Char) : RegularExpression Char := r * r.star

/-- Operands with an operator between neighbours. -/
def joined : RegularExpression Char := oneOrMore digit * (operator * oneOrMore digit).star

/-- The whole grammar. The last operator may have no operand behind it. -/
def expression : RegularExpression Char := joined * (operator + 1)

/-- The texts after which the scanner is in a state. -/
def reaching : State → Language Char
  | .start => 1
  | .digit => joined.matches'
  | .operator => joined.matches' * operator.matches'
  | .error => {text | text ≠ [] ∧ text ∉ expression.matches'}

/-! ## Languages read from their ends -/

theorem mem_oneOf {cs : List Char} {text : Text} :
    text ∈ (oneOf cs).matches' ↔ ∃ c ∈ cs, text = [c] := by
  induction cs with
  | nil => simp [oneOf]
  | cons c cs ih =>
    have hsum : oneOf (c :: cs) = .char c + oneOf cs := by simp [oneOf]
    rw [hsum, RegularExpression.matches'_add, Language.mem_add, ih]
    simp only [RegularExpression.matches'_char, List.mem_cons, exists_eq_or_imp]
    rfl

/-- A text that ends in one of `cs` is split before its last character and nowhere else. -/
theorem append_mem_mul_oneOf {l : Language Char} {cs : List Char} {text : Text} {c : Char} :
    text ++ [c] ∈ l * (oneOf cs).matches' ↔ text ∈ l ∧ c ∈ cs := by
  rw [Language.mem_mul]
  constructor
  · rintro ⟨u, hu, v, hv, he⟩
    obtain ⟨d, hd, rfl⟩ := mem_oneOf.mp hv
    obtain ⟨rfl, hdc⟩ := List.append_inj' he rfl
    cases hdc
    exact ⟨hu, hd⟩
  · rintro ⟨hu, hc⟩
    exact ⟨text, hu, [c], mem_oneOf.mpr ⟨c, hc, rfl⟩, rfl⟩

theorem nil_notMem_mul_oneOf {l : Language Char} {cs : List Char} :
    [] ∉ l * (oneOf cs).matches' := by
  rw [Language.mem_mul]
  rintro ⟨u, _, v, hv, he⟩
  obtain ⟨c, _, rfl⟩ := mem_oneOf.mp hv
  simp at he

/-- A run ends in one of its elements, with nothing or a run before it. -/
theorem oneOrMore_eq (d : Language Char) : d * d∗ = (1 + d * d∗) * d := by
  rw [Language.one_add_self_mul_kstar_eq_kstar, Language.mul_self_kstar_comm]

/-- Joined parts are one part, or joined parts with a joint and a last part behind them. -/
theorem joined_unroll (a o : Language Char) :
    a * (o * a)∗ = a + a * (o * a)∗ * o * a := by
  calc a * (o * a)∗ = a * (1 + (o * a)∗ * (o * a)) := by
        rw [Language.one_add_kstar_mul_self_eq_kstar]
    _ = a + a * (o * a)∗ * o * a := by simp only [mul_add, mul_one, mul_assoc]

/-- Runs of `d` joined by `o` end in a `d`. Before it stands nothing, or joined runs, or joined runs
and an `o`. -/
theorem joined_eq (d o : Language Char) :
    d * d∗ * (o * (d * d∗))∗ =
      (1 + d * d∗ * (o * (d * d∗))∗ + d * d∗ * (o * (d * d∗))∗ * o) * d := by
  have hrun := oneOrMore_eq d
  generalize d * d∗ = a at hrun ⊢
  have hunroll := joined_unroll a o
  generalize a * (o * a)∗ = s at hunroll ⊢
  calc s = (1 + s * o) * a := by rw [add_mul, one_mul, ← hunroll]
    _ = (1 + s * o) * (1 + a) * d := by rw [mul_assoc, ← hrun]
    _ = (1 + (a + s * o * a) + s * o) * d := by
        rw [mul_add, mul_one, add_mul 1, one_mul, add_right_comm]
    _ = (1 + s + s * o) * d := by rw [← hunroll]

theorem reaching_digit :
    reaching .digit = (reaching .start + reaching .digit + reaching .operator) * digit.matches' :=
  joined_eq digit.matches' operator.matches'

theorem reaching_operator : reaching .operator = reaching .digit * operator.matches' := rfl

theorem mem_expression {text : Text} :
    text ∈ expression.matches' ↔ text ∈ reaching .digit ∨ text ∈ reaching .operator := by
  have hsplit : expression.matches' = joined.matches' + joined.matches' * operator.matches' := by
    rw [expression, RegularExpression.matches'_mul, RegularExpression.matches'_add,
      RegularExpression.matches'_epsilon, mul_add, mul_one, add_comm]
  rw [hsplit, Language.mem_add]
  rfl

/-! ## The scanner follows the equations -/

theorem append_mem_reaching_digit {text : Text} {c : Char} :
    text ++ [c] ∈ reaching .digit ↔
      (text ∈ reaching .start ∨ text ∈ reaching .digit ∨ text ∈ reaching .operator) ∧
        Symbol.ofChar c = .digit := by
  calc text ++ [c] ∈ reaching .digit
    _ ↔ text ++ [c] ∈ (reaching .start + reaching .digit + reaching .operator) *
          digit.matches' := by rw [← reaching_digit]
    _ ↔ text ∈ reaching .start + reaching .digit + reaching .operator ∧ c ∈ Symbol.digits :=
        append_mem_mul_oneOf
    _ ↔ _ := by rw [Symbol.ofChar_eq_digit, Language.mem_add, Language.mem_add, or_assoc]

theorem append_mem_reaching_operator {text : Text} {c : Char} :
    text ++ [c] ∈ reaching .operator ↔
      text ∈ reaching .digit ∧ (Symbol.ofChar c = .plus ∨ Symbol.ofChar c = .minus) := by
  rw [reaching_operator, Symbol.ofChar_eq_plus_or_minus]
  exact append_mem_mul_oneOf

/-- The invariant of the scanner. The three states in which nothing is wrong yet are followed
together, since each character may lead from any of them to another. -/
theorem finalState_eq_iff_of_ne_error (text : Text) :
    (finalState text = .start ↔ text ∈ reaching .start) ∧
      (finalState text = .digit ↔ text ∈ reaching .digit) ∧
      (finalState text = .operator ↔ text ∈ reaching .operator) := by
  induction text using List.reverseRecOn with
  | nil =>
    have hdigit : [] ∉ reaching .digit := by
      rw [reaching_digit]
      exact nil_notMem_mul_oneOf
    have hoperator : [] ∉ reaching .operator := nil_notMem_mul_oneOf
    have hstart : finalState [] = .start := rfl
    simp [hstart, hdigit, hoperator, show reaching .start = 1 from rfl]
  | append_singleton text c ih =>
    obtain ⟨hstart, hdigit, hoperator⟩ := ih
    rw [finalState_append_singleton]
    refine ⟨?_, ?_, ?_⟩
    · have hne : text ++ [c] ∉ reaching .start := List.append_ne_nil_of_right_ne_nil _ (by simp)
      exact iff_of_false (State.next_ne_start _ _) hne
    · rw [State.next_eq_digit, append_mem_reaching_digit, ← hstart, ← hdigit, ← hoperator,
        State.ne_error_iff]
    · rw [State.next_eq_operator, append_mem_reaching_operator, hdigit]

/-- The scanner rests in a state after exactly the texts that reach it. -/
theorem finalState_eq_iff (text : Text) (s : State) :
    finalState text = s ↔ text ∈ reaching s := by
  obtain ⟨hstart, hdigit, hoperator⟩ := finalState_eq_iff_of_ne_error text
  cases s with
  | start => exact hstart
  | digit => exact hdigit
  | operator => exact hoperator
  | error =>
    have herror : text ∈ reaching .error ↔ text ≠ [] ∧ text ∉ expression.matches' := Iff.rfl
    have hnil : text ∈ reaching .start ↔ text = [] := Iff.rfl
    rw [herror, mem_expression, ne_eq, ← hnil, ← hstart, ← hdigit, ← hoperator, not_or,
      ← not_iff_not, ← ne_eq, State.ne_error_iff]
    tauto

/-! ## The classification -/

/-- The last character is one of `cs`. -/
def EndsIn (cs : List Char) (text : Text) : Prop := ∃ c ∈ cs, text.getLast? = some c

theorem endsIn_append_singleton {cs : List Char} {text : Text} {c : Char} :
    EndsIn cs (text ++ [c]) ↔ c ∈ cs := by
  simp [EndsIn]

theorem isValid_iff {text : Text} : isValid text = true ↔ text ∈ expression.matches' := by
  rw [isValid_eq_accepting, State.accepting_iff, mem_expression, finalState_eq_iff,
    finalState_eq_iff]

/-- The last character decides between the accepting states, so it tells whether an expression leads
to `s` if it tells whether a step into an accepting state does. -/
theorem finalState_eq_iff_endsIn {s : State} {cs : List Char} (hs : s ≠ .start)
    (hstep : ∀ (q : State) (c : Char),
      q.next (.ofChar c) = s ↔ (q.next (.ofChar c)).accepting = true ∧ c ∈ cs) (text : Text) :
    finalState text = s ↔ text ∈ expression.matches' ∧ EndsIn cs text := by
  rw [← isValid_iff, isValid_eq_accepting]
  cases text using List.reverseRecOn with
  | nil =>
    have hstart : finalState [] ≠ s := hs.symm
    have hlast : ¬ EndsIn cs [] := by simp [EndsIn]
    exact iff_of_false hstart fun h => hlast h.2
  | append_singleton u c =>
    rw [endsIn_append_singleton, finalState_append_singleton]
    exact hstep _ c

theorem finalState_eq_digit_iff (text : Text) :
    finalState text = .digit ↔ text ∈ expression.matches' ∧ EndsIn Symbol.digits text := by
  refine finalState_eq_iff_endsIn (by simp) (fun q c => ?_) text
  rw [← Symbol.ofChar_eq_digit]
  exact State.next_eq_digit_iff_accepting

theorem finalState_eq_operator_iff (text : Text) :
    finalState text = .operator ↔ text ∈ expression.matches' ∧ EndsIn ['+', '-'] text := by
  refine finalState_eq_iff_endsIn (by simp) (fun q c => ?_) text
  rw [← Symbol.ofChar_eq_plus_or_minus]
  exact State.next_eq_operator_iff_accepting

/-- **The scanner classifies every text by the grammar.** Its state says whether the text is empty,
an expression with an operand at its end, one with an operator at its end, or none; and every way to
ask for the verdict gives whether the text is an expression. -/
theorem scan_classifies (text : Text) :
    (finalState text = .start ↔ text = []) ∧
    (finalState text = .digit ↔ text ∈ expression.matches' ∧ EndsIn Symbol.digits text) ∧
    (finalState text = .operator ↔ text ∈ expression.matches' ∧ EndsIn ['+', '-'] text) ∧
    (finalState text = .error ↔ text ≠ [] ∧ text ∉ expression.matches') ∧
    (isValid text = true ↔ text ∈ expression.matches') ∧
    (scan text).valid = isValid text ∧
    (finalState text).accepting = isValid text ∧
    (scan text).finalState = finalState text :=
  ⟨finalState_eq_iff text .start, finalState_eq_digit_iff text, finalState_eq_operator_iff text,
    finalState_eq_iff text .error, isValid_iff, rfl, rfl, rfl⟩

/-- An operator may dangle at the end, but a digit of another script is no digit. -/
example : "10-2+".toList ∈ expression.matches' ∧ "٣".toList ∉ expression.matches' := by decide

end SumExpr.Grammar
