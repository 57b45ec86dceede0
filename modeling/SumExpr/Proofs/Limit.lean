import SumExpr.Proofs.Numeral

/-! # What is accepted as a limit

A limit is a spelling of a number that is not negative, and a text that is none is refused in one of
two ways: as a negative number, or as no number at all (`parse_exact`). -/
namespace SumExpr.Limit
open Numeral

theorem parse_eq_negative_iff {text : Text} {m : Int} :
    parse text = .error (.negative m) ↔ parse? text = some m ∧ m < 0 := by
  unfold parse
  cases parse? text with
  | none => simp
  | some n =>
    simp only [Option.some.injEq]
    split
    · next hneg =>
      simp only [Except.error.injEq, Error.negative.injEq]
      exact (and_iff_left_of_imp fun h => h ▸ hneg).symm
    · next hnot =>
      refine iff_of_false (by simp) ?_
      intro h
      exact hnot (h.1 ▸ h.2)

theorem parse_eq_invalid_iff {text t : Text} :
    parse text = .error (.invalid t) ↔ t = text ∧ parse? text = none := by
  unfold parse
  cases parse? text with
  | none => simp [eq_comm]
  | some n =>
    refine iff_of_false ?_ (by simp)
    simp only
    split <;> simp

theorem parse?_eq_none_iff {text : Text} :
    parse? text = none ↔ ¬ ∃ s : Spelling, s.text = text ∧ s.count ≤ maxDigits := by
  rw [Option.eq_none_iff_forall_ne_some]
  constructor
  · intro h hspelling
    obtain ⟨s, htext, hcount⟩ := hspelling
    exact h s.value (parse?_eq_some_iff.mpr ⟨s, htext, hcount, rfl⟩)
  · intro h m hm
    obtain ⟨s, htext, hcount, _⟩ := parse?_eq_some_iff.mp hm
    exact h ⟨s, htext, hcount⟩

theorem parse_spelling {s : Spelling} (hcount : s.count ≤ maxDigits) (hsign : s.sign ≠ .minus) :
    parse s.text = .ok s.digits.value := by
  refine parse_eq_ok_iff.mpr (parse?_eq_some_iff.mpr ⟨s, rfl, hcount, ?_⟩)
  unfold Spelling.value
  cases hs : s.sign with
  | unsigned => rfl
  | plus => rfl
  | minus => exact absurd hs hsign

/-- Zeros in front do not change the value. -/
theorem value_of_values {r : DigitRun} {zeros n : Nat}
    (h : r.values = List.replicate zeros 0 ++ (Nat.digits 10 n).reverse) : r.value = n := by
  rw [DigitRun.value, h, List.reverse_append, List.reverse_reverse, List.reverse_replicate,
    Nat.ofDigits_append_replicate_zero, Nat.ofDigits_digits]

theorem message_negative {n : Nat} (h : 0 < n) :
    (Error.negative (-n)).message = "must be >= 0, got ".toList ++ '-' :: Text.ofNat n := by
  have htext : Text.ofInt (-n) = '-' :: Text.ofNat n := by
    rw [Text.ofInt, if_pos (by omega), Int.natAbs_neg, Int.natAbs_natCast]
  rw [← htext]
  rfl

/-- What comes of a text that is to be a limit. -/
structure ParsedExactly (text : Text) : Prop where
  accepted : ∀ n : Nat, parse text = .ok n ↔
    ∃ s : Spelling, s.text = text ∧ s.count ≤ maxDigits ∧ s.value = n
  negative : ∀ m : Int, parse text = .error (.negative m) ↔
    (∃ s : Spelling, s.text = text ∧ s.count ≤ maxDigits ∧ s.value = m) ∧ m < 0
  invalid : ∀ t, parse text = .error (.invalid t) ↔
    t = text ∧ ¬ ∃ s : Spelling, s.text = text ∧ s.count ≤ maxDigits
  digits : maxDigits = 4300
  invalid_message : (Error.invalid text).message = "invalid int value: ".toList ++ text.quoted
  negative_message : ∀ n : Nat, 0 < n →
    (Error.negative (-n)).message = "must be >= 0, got ".toList ++ '-' :: Text.ofNat n
  /-- Zeros before a number, underscores within it, a plus sign, blanks around it and digits of any
  script make no difference. -/
  spelled : ∀ (n zeros : Nat) (s : Spelling),
    s.digits.values = List.replicate zeros 0 ++ (Nat.digits 10 n).reverse →
    s.count ≤ maxDigits → s.sign ≠ .minus → parse s.text = .ok n
  padded : ∀ n zeros : Nat, zeros + (Text.ofNat n).length ≤ maxDigits →
    parse (List.replicate zeros '0' ++ Text.ofNat n) = .ok n

/-- **What is accepted as a limit.** A text is read as the number of which it is a spelling with at
most 4300 digits. It is accepted if that number is not negative, be it with a sign before a zero,
and refused with the number else; a text that is no such spelling is refused as it stands. -/
theorem parse_exact (text : Text) : ParsedExactly text := by
  constructor
  case accepted =>
    intro n
    rw [parse_eq_ok_iff, parse?_eq_some_iff]
  case negative =>
    intro m
    rw [parse_eq_negative_iff, parse?_eq_some_iff]
  case invalid =>
    intro t
    rw [parse_eq_invalid_iff, parse?_eq_none_iff]
  case digits => rfl
  case invalid_message => rfl
  case negative_message =>
    intro n hn
    exact message_negative hn
  case spelled =>
    intro n zeros s hvalues hcount hsign
    rw [parse_spelling hcount hsign, value_of_values hvalues]
  case padded =>
    intro n zeros h
    have hplain := parse_digits (Plain.padded zeros n h)
    rw [Plain.value_padded] at hplain
    exact hplain

/-- Forty-two with a zero before it, its digits from two scripts. -/
def mixed : Spelling where
  before := ['\u2003']
  sign := .plus
  digits := ⟨⟨'0', 0, by decide⟩, [⟨⟨'4', 4, by decide⟩, true⟩, ⟨⟨'٢', 2, by decide⟩, false⟩]⟩
  after := ['\t']
  before_blank := List.forall_mem_singleton.mpr (by decide)
  after_blank := List.forall_mem_singleton.mpr (by decide)

theorem parse_exact_mixed :
    parse "\u2003+0_4٢\t".toList = .ok 42 ∧ parse "00042".toList = .ok 42 ∧
    (Error.negative (-42)).message = "must be >= 0, got -42".toList :=
  ⟨(parse_exact []).spelled 42 1 mixed (by decide) (by decide) (by decide),
    (parse_exact []).padded 42 3 (by decide),
    (parse_exact []).negative_message 42 (by decide)⟩

end SumExpr.Limit
