import SumExpr.Limit
import SumExpr.Proofs.Numeral.Spelling

/-! # Numbers in plain digits

The usual way to write a number, with ASCII digits and nothing else, is one of the ways in which it
may be written: a limit given so is read as the number (`Limit.parse_digits`). -/
namespace SumExpr

namespace Numeral

/-- One or more ASCII digits, but not more than a number may have. Zeros may lead. -/
structure Plain where
  digits : Text
  ne_nil : digits ≠ []
  ascii : ∀ c ∈ digits, c.isDigit = true
  length_le : digits.length ≤ maxDigits

/-- The number that the digits stand for. -/
def Plain.value (p : Plain) : Nat := Nat.ofDigitChars 10 p.digits 0

/-- A number in the digits in which it is written here. -/
def Plain.ofNat (n : Nat) (h : (Text.ofNat n).length ≤ maxDigits) : Plain where
  digits := Text.ofNat n
  ne_nil := Nat.toDigits_ne_nil
  ascii _ hc := Nat.isDigit_of_mem_toDigits (by decide) (by decide) hc
  length_le := h

/-- A number in its digits with zeros before them. -/
def Plain.padded (zeros n : Nat) (h : zeros + (Text.ofNat n).length ≤ maxDigits) : Plain where
  digits := List.replicate zeros '0' ++ Text.ofNat n
  ne_nil := List.append_ne_nil_of_right_ne_nil _ Nat.toDigits_ne_nil
  ascii := by
    intro c hc
    rcases List.mem_append.mp hc with hc | hc
    · rw [List.eq_of_mem_replicate hc]
      rfl
    · exact Nat.isDigit_of_mem_toDigits (by decide) (by decide) hc
  length_le := by simpa using h

theorem ofDigitChars_zeros (zeros n : Nat) :
    Nat.ofDigitChars 10 (List.replicate zeros '0' ++ Text.ofNat n) 0 = n := by
  induction zeros with
  | zero => exact Nat.ofDigitChars_ten_toDigits
  | succ zeros ih => exact ih

theorem Plain.value_padded (zeros n : Nat) (h : zeros + (Text.ofNat n).length ≤ maxDigits) :
    (Plain.padded zeros n h).value = n :=
  ofDigitChars_zeros zeros n

theorem toNat_of_isDigit {c : Char} (h : c.isDigit = true) : 48 ≤ c.toNat ∧ c.toNat ≤ 57 := by
  simpa [Char.isDigit, UInt32.le_iff_toNat_le] using h

theorem digitValue?_of_isDigit {c : Char} (h : c.isDigit = true) :
    Text.digitValue? c = some (c.toNat - 48) := by
  obtain ⟨hlow, hhigh⟩ := toNat_of_isDigit h
  rw [Text.digitValue?, Text.digitZeros, List.find?_cons_of_pos (by simp; omega), Option.map_some]

theorem exists_nextDigits {text : Text} (h : ∀ c ∈ text, c.isDigit = true) :
    ∃ more : List NextDigit,
      more.flatMap NextDigit.text = text ∧ more.map (·.value) = text.map (·.toNat - 48) := by
  induction text with
  | nil => exact ⟨[], rfl, rfl⟩
  | cons c rest ih =>
    obtain ⟨hc, hrest⟩ := List.forall_mem_cons.mp h
    obtain ⟨more, htext, hvalues⟩ := ih hrest
    refine ⟨⟨⟨c, c.toNat - 48, digitValue?_of_isDigit hc⟩, false⟩ :: more, ?_, ?_⟩
    · rw [List.flatMap_cons, htext]
      rfl
    · rw [List.map_cons, hvalues, List.map_cons]

/-- Plain digits are a spelling without blanks, sign and underscores. -/
theorem Plain.exists_spelling (p : Plain) :
    ∃ s : Spelling, s.text = p.digits ∧ s.count = p.digits.length ∧ s.value = p.value := by
  obtain ⟨digits, hne, hascii, hlen⟩ := p
  obtain ⟨c, rest, rfl⟩ := List.exists_cons_of_ne_nil hne
  obtain ⟨hc, hrest⟩ := List.forall_mem_cons.mp hascii
  obtain ⟨more, htext, hvalues⟩ := exists_nextDigits hrest
  let r : DigitRun := ⟨⟨c, c.toNat - 48, digitValue?_of_isDigit hc⟩, more⟩
  have hrun : r.values = (c :: rest).map (·.toNat - 48) := by
    rw [DigitRun.values, hvalues, List.map_cons]
  have hvalue : r.value = Nat.ofDigitChars 10 (c :: rest) 0 := by
    rw [DigitRun.value, hrun, ← ofDigits_eq, ofDigits, List.foldl_map]
    rfl
  refine ⟨⟨[], .unsigned, r, [], by simp, by simp⟩, ?_, ?_, ?_⟩
  · have hall : r.text = c :: rest := congrArg (c :: ·) htext
    rw [Spelling.text, hall, List.append_nil]
    rfl
  · rw [Spelling.count, hrun, List.length_map]
  · exact congrArg Int.ofNat hvalue

theorem parse?_digits (p : Plain) : parse? p.digits = some (p.value : Int) := by
  obtain ⟨s, htext, hcount, hvalue⟩ := p.exists_spelling
  exact parse?_eq_some_iff.mpr ⟨s, htext, hcount ▸ p.length_le, hvalue⟩

end Numeral

/-- A limit is a number that is not negative. -/
theorem Limit.parse_eq_ok_iff {text : Text} {n : Nat} :
    Limit.parse text = .ok n ↔ Numeral.parse? text = some (n : Int) := by
  unfold Limit.parse
  cases Numeral.parse? text with
  | none => simp
  | some m =>
    simp only
    split
    · simp only [reduceCtorEq, Option.some.injEq, false_iff]
      omega
    · simp only [Except.ok.injEq, Option.some.injEq]
      omega

theorem Limit.parse_digits (p : Numeral.Plain) : Limit.parse p.digits = .ok p.value :=
  Limit.parse_eq_ok_iff.mpr (Numeral.parse?_digits p)

end SumExpr
