import Mathlib.Data.List.DropRight
import Mathlib.Data.Nat.Digits.Defs
import SumExpr.Numeral

/-! # Numbers in writing

A spelling is put together from its parts: blanks, a sign, digits of any script with single
underscores between them, blanks. What is read as a number is the text of a spelling, and the number
is the value of the spelling (`parse?_eq_some_iff`), provided there are not too many digits. -/
namespace SumExpr.Numeral

/-! ## Digits -/

/-- A decimal digit of some script. -/
structure Digit where
  char : Char
  value : Nat
  value_eq : Text.digitValue? char = some value

/-- A digit behind another one. -/
structure NextDigit extends Digit where
  /-- Whether an underscore stands before it. -/
  marked : Bool

def NextDigit.text (d : NextDigit) : Text := if d.marked then ['_', d.char] else [d.char]

/-- One or more digits with single underscores between them. -/
structure DigitRun where
  first : Digit
  more : List NextDigit

namespace DigitRun

def text (r : DigitRun) : Text := r.first.char :: r.more.flatMap NextDigit.text

/-- The digits, the highest first. -/
def values (r : DigitRun) : List Nat := r.first.value :: r.more.map (·.value)

def value (r : DigitRun) : Nat := Nat.ofDigits 10 r.values.reverse

end DigitRun

theorem Digit.ne_of_digitValue? (d : Digit) {c : Char} (h : Text.digitValue? c = none) :
    d.char ≠ c := by
  intro he
  have hvalue := d.value_eq
  rw [he, h] at hvalue
  cases hvalue

theorem moreDigits?_append (d : NextDigit) (rest : Text) :
    moreDigits? (d.text ++ rest) = (moreDigits? rest).map (d.value :: ·) := by
  have hmark : d.char ≠ '_' := d.ne_of_digitValue? (by decide)
  unfold NextDigit.text
  cases d.marked with
  | true =>
    rw [if_pos rfl, List.cons_append, List.singleton_append, moreDigits?, d.value_eq]
    cases moreDigits? rest <;> rfl
  | false =>
    have hplain : ∀ c r, d.char = '_' → rest = c :: r → False := fun _ _ he _ => hmark he
    rw [if_neg Bool.false_ne_true, List.singleton_append, moreDigits?.eq_3 _ _ hplain, d.value_eq]
    cases moreDigits? rest <;> rfl

theorem moreDigits?_flatMap (more : List NextDigit) :
    moreDigits? (more.flatMap NextDigit.text) = some (more.map (·.value)) := by
  induction more with
  | nil => rfl
  | cons d more ih => rw [List.flatMap_cons, moreDigits?_append, ih, Option.map_some, List.map_cons]

/-- What is read as digits behind a digit are such digits. -/
theorem exists_of_moreDigits? {text : Text} {ds : List Nat} (h : moreDigits? text = some ds) :
    ∃ more : List NextDigit, more.flatMap NextDigit.text = text ∧ more.map (·.value) = ds := by
  induction text using moreDigits?.induct generalizing ds with
  | case1 =>
    cases h
    exact ⟨[], rfl, rfl⟩
  | case2 c rest ih =>
    rw [moreDigits?] at h
    obtain ⟨d, hd, h⟩ := Option.bind_eq_some_iff.mp h
    obtain ⟨rs, hrs, h⟩ := Option.bind_eq_some_iff.mp h
    cases h
    obtain ⟨more, rfl, rfl⟩ := ih hrs
    exact ⟨⟨⟨c, d, hd⟩, true⟩ :: more, rfl, rfl⟩
  | case3 c rest hplain ih =>
    rw [moreDigits?.eq_3 c rest hplain] at h
    obtain ⟨d, hd, h⟩ := Option.bind_eq_some_iff.mp h
    obtain ⟨rs, hrs, h⟩ := Option.bind_eq_some_iff.mp h
    cases h
    obtain ⟨more, rfl, rfl⟩ := ih hrs
    exact ⟨⟨⟨c, d, hd⟩, false⟩ :: more, rfl, rfl⟩

theorem digits?_text (r : DigitRun) : digits? r.text = some r.values := by
  rw [DigitRun.text, digits?, r.first.value_eq, moreDigits?_flatMap]
  rfl

theorem exists_of_digits? {text : Text} {ds : List Nat} (h : digits? text = some ds) :
    ∃ r : DigitRun, r.text = text ∧ r.values = ds := by
  cases text with
  | nil => cases h
  | cons c rest =>
    rw [digits?] at h
    obtain ⟨d, hd, h⟩ := Option.bind_eq_some_iff.mp h
    obtain ⟨rs, hrs, h⟩ := Option.bind_eq_some_iff.mp h
    cases h
    obtain ⟨more, rfl, rfl⟩ := exists_of_moreDigits? hrs
    exact ⟨⟨⟨c, d, hd⟩, more⟩, rfl, rfl⟩

theorem ofDigits_eq (ds : List Nat) : ofDigits ds = Nat.ofDigits 10 ds.reverse := by
  rw [Nat.ofDigits_eq_foldr, List.foldr_reverse, ofDigits]
  simp only [Nat.cast_id, Nat.add_comm]

theorem magnitude?_eq_some_iff {text : Text} {n : Nat} :
    magnitude? text = some n ↔
      ∃ r : DigitRun, r.text = text ∧ r.values.length ≤ maxDigits ∧ r.value = n := by
  unfold magnitude?
  constructor
  · intro h
    split at h
    · next ds hds =>
      obtain ⟨r, hr, rfl⟩ := exists_of_digits? hds
      obtain ⟨hlen, hvalue⟩ := Option.ite_none_right_eq_some.mp h
      rw [ofDigits_eq, Option.some.injEq] at hvalue
      exact ⟨r, hr, hlen, hvalue⟩
    · cases h
  · intro h
    obtain ⟨r, rfl, hlen, rfl⟩ := h
    rw [digits?_text]
    simp only [hlen, if_true, ofDigits_eq, DigitRun.value]

/-! ## Signs -/

inductive Sign
  | unsigned | plus | minus
  deriving DecidableEq

namespace Sign

def text : Sign → Text
  | .unsigned => []
  | .plus => ['+']
  | .minus => ['-']

def apply : Sign → Nat → Int
  | .unsigned, n => n
  | .plus, n => n
  | .minus, n => -n

end Sign

/-- What stands behind the sign is read as a magnitude. Digits have no sign of their own. -/
theorem parse?_of_trim {text : Text} {sign : Sign} {r : DigitRun}
    (h : trim text = sign.text ++ r.text) :
    parse? text = (magnitude? r.text).map sign.apply := by
  unfold parse?
  rw [h]
  cases sign with
  | minus => rfl
  | plus => rfl
  | unsigned =>
    rw [Sign.text, List.nil_append]
    split
    · next heq => exact absurd (List.cons.inj heq).1 (r.first.ne_of_digitValue? (by decide))
    · next heq => exact absurd (List.cons.inj heq).1 (r.first.ne_of_digitValue? (by decide))
    · rfl

theorem exists_of_parse? {text : Text} {m : Int} (h : parse? text = some m) :
    ∃ (sign : Sign) (rest : Text) (n : Nat),
      trim text = sign.text ++ rest ∧ magnitude? rest = some n ∧ sign.apply n = m := by
  unfold parse? at h
  split at h
  · next rest htrim =>
    obtain ⟨n, hn, hm⟩ := Option.map_eq_some_iff.mp h
    exact ⟨.minus, rest, n, htrim, hn, hm⟩
  · next rest htrim =>
    obtain ⟨n, hn, hm⟩ := Option.map_eq_some_iff.mp h
    exact ⟨.plus, rest, n, htrim, hn, hm⟩
  · obtain ⟨n, hn, hm⟩ := Option.map_eq_some_iff.mp h
    exact ⟨.unsigned, trim text, n, rfl, hn, hm⟩

/-! ## Blanks -/

/-- The code points of the blanks. -/
def blanks : List Nat :=
  [0x20, 0x9, 0xA, 0xB, 0xC, 0xD, 0x85, 0xA0, 0x1680, 0x2000, 0x2001, 0x2002, 0x2003, 0x2004,
    0x2005, 0x2006, 0x2007, 0x2008, 0x2009, 0x200A, 0x2028, 0x2029, 0x202F, 0x205F, 0x3000]

theorem isBlank_iff {c : Char} : isBlank c = true ↔ c.toNat ∈ blanks := by
  simp only [isBlank, blanks, Bool.or_eq_true, Bool.and_eq_true, decide_eq_true_eq, List.mem_cons,
    List.not_mem_nil, or_false]
  omega

/-- No digit is a blank. -/
theorem Digit.not_blank (d : Digit) : isBlank d.char = false := by
  have hnone : ∀ n ∈ blanks, Text.digitZeros.find? (fun z => z ≤ n && n ≤ z + 9) = none := by
    decide
  rw [Bool.eq_false_iff]
  intro hblank
  have hvalue := d.value_eq
  rw [Text.digitValue?, hnone _ (isBlank_iff.mp hblank)] at hvalue
  cases hvalue

theorem trim_eq (text : Text) : trim text = (text.dropWhile isBlank).rdropWhile isBlank := rfl

/-- What is trimmed away is blanks. -/
theorem exists_blanks (text : Text) :
    ∃ before after, (∀ c ∈ before, isBlank c = true) ∧ (∀ c ∈ after, isBlank c = true) ∧
      before ++ trim text ++ after = text := by
  refine ⟨text.takeWhile isBlank, (text.dropWhile isBlank).rtakeWhile isBlank, ?_, ?_, ?_⟩
  · intro c hc
    exact List.mem_takeWhile_imp hc
  · intro c hc
    exact List.mem_rtakeWhile_imp hc
  · rw [trim_eq, List.append_assoc, List.rdropWhile_append_rtakeWhile,
      List.takeWhile_append_dropWhile]

/-- Blanks are trimmed away up to the first and the last character that is none. -/
theorem trim_append {before after core init rest : Text} {c d : Char}
    (hbefore : ∀ b ∈ before, isBlank b = true) (hafter : ∀ b ∈ after, isBlank b = true)
    (hfirst : core = c :: rest) (hc : isBlank c = false)
    (hlast : core = init ++ [d]) (hd : isBlank d = false) :
    trim (before ++ core ++ after) = core := by
  have hstart : (before ++ core ++ after).dropWhile isBlank = core ++ after := by
    rw [List.append_assoc, List.dropWhile_append_of_pos hbefore, hfirst, List.cons_append,
      List.dropWhile_cons_of_neg (by simp [hc])]
  have hblank : ∀ b ∈ after.reverse, isBlank b = true := by simpa using hafter
  rw [trim_eq, hstart, List.rdropWhile, List.reverse_append, List.dropWhile_append_of_pos hblank,
    ← List.rdropWhile, hlast, List.rdropWhile_concat_neg _ _ _ (by simp [hd])]

/-! ## Spellings -/

/-- A number in writing. -/
structure Spelling where
  before : Text
  sign : Sign
  digits : DigitRun
  after : Text
  before_blank : ∀ c ∈ before, isBlank c = true
  after_blank : ∀ c ∈ after, isBlank c = true

namespace Spelling

def text (s : Spelling) : Text := s.before ++ (s.sign.text ++ s.digits.text) ++ s.after

def value (s : Spelling) : Int := s.sign.apply s.digits.value

/-- Leading zeros count as digits, and underscores do not. -/
def count (s : Spelling) : Nat := s.digits.values.length

end Spelling

theorem DigitRun.exists_last (r : DigitRun) : ∃ init, ∃ d : Digit, r.text = init ++ [d.char] := by
  rcases List.eq_nil_or_concat r.more with hmore | ⟨more, d, hmore⟩
  · exact ⟨[], r.first, by rw [text, hmore]; rfl⟩
  · have htext : ∃ init, d.text = init ++ [d.char] := by
      unfold NextDigit.text
      split
      · exact ⟨['_'], rfl⟩
      · exact ⟨[], rfl⟩
    obtain ⟨init, hinit⟩ := htext
    refine ⟨r.first.char :: more.flatMap NextDigit.text ++ init, d.toDigit, ?_⟩
    rw [text, hmore, List.concat_eq_append, List.flatMap_append, List.flatMap_singleton, hinit]
    simp

theorem Sign.exists_first (sign : Sign) (r : DigitRun) :
    ∃ c rest, sign.text ++ r.text = c :: rest ∧ isBlank c = false := by
  cases sign with
  | unsigned => exact ⟨_, _, rfl, r.first.not_blank⟩
  | plus => exact ⟨'+', r.text, rfl, by decide⟩
  | minus => exact ⟨'-', r.text, rfl, by decide⟩

theorem Spelling.trim_text (s : Spelling) : trim s.text = s.sign.text ++ s.digits.text := by
  obtain ⟨c, rest, hfirst, hc⟩ := s.sign.exists_first s.digits
  obtain ⟨init, d, hlast⟩ := s.digits.exists_last
  rw [← List.append_right_inj s.sign.text, ← List.append_assoc] at hlast
  exact trim_append s.before_blank s.after_blank hfirst hc hlast d.not_blank

/-- A text is read as a number just if it is a spelling of that number. -/
theorem parse?_eq_some_iff {text : Text} {m : Int} :
    parse? text = some m ↔
      ∃ s : Spelling, s.text = text ∧ s.count ≤ maxDigits ∧ s.value = m := by
  constructor
  · intro h
    obtain ⟨sign, rest, n, htrim, hn, hm⟩ := exists_of_parse? h
    obtain ⟨r, rfl, hcount, rfl⟩ := magnitude?_eq_some_iff.mp hn
    obtain ⟨before, after, hbefore, hafter, htext⟩ := exists_blanks text
    rw [htrim] at htext
    exact ⟨⟨before, sign, r, after, hbefore, hafter⟩, htext, hcount, hm⟩
  · intro h
    obtain ⟨s, rfl, hcount, rfl⟩ := h
    rw [parse?_of_trim s.trim_text, magnitude?_eq_some_iff.mpr ⟨s.digits, rfl, hcount, rfl⟩]
    rfl

end SumExpr.Numeral
