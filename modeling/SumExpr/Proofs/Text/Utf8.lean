import Mathlib.Data.List.Forall2
import SumExpr.Text.Utf8

/-! # What is decoded

Bytes are decoded just if they are the bytes of the characters of a text one after another, and that
text is what they are decoded to (`decode_eq_ok_iff`). Between the decoder, which reads a first byte
and what it owes, and the encoding of a character stands the table of code points by the number of
their bytes (`Bytes`). -/
namespace SumExpr.Text.Utf8
open String (utf8EncodeChar)

/-! ## Ranges of bytes -/

theorem ByteRange.contains_iff {r : ByteRange} {b : UInt8} :
    r.contains b = true ↔ r.low.toNat ≤ b.toNat ∧ b.toNat ≤ r.high.toNat := by
  simp [ByteRange.contains, UInt8.le_iff_toNat_le]

theorem contains_continuation {d : UInt8} :
    continuation.contains d = true ↔ 0x80 ≤ d.toNat ∧ d.toNat ≤ 0xBF :=
  ByteRange.contains_iff

/-- The range of the byte behind a first byte that owes more than one. -/
def second (b : UInt8) : ByteRange :=
  if b = 0xE0 then ⟨0xA0, 0xBF⟩
  else if b = 0xED then ⟨0x80, 0x9F⟩
  else if b = 0xF0 then ⟨0x90, 0xBF⟩
  else if b = 0xF4 then ⟨0x80, 0x8F⟩
  else continuation

/-- How many bytes are owed can be told from the size of the first byte. -/
theorem lead?_eq (b : UInt8) :
    lead? b =
      if b.toNat < 0x80 then some ⟨b.toNat, []⟩
      else if b.toNat < 0xC2 then none
      else if b.toNat < 0xE0 then some ⟨b.toNat - 0xC0, [continuation]⟩
      else if b.toNat < 0xF0 then some ⟨b.toNat - 0xE0, [second b, continuation]⟩
      else if b.toNat < 0xF5 then some ⟨b.toNat - 0xF0, [second b, continuation, continuation]⟩
      else none := by
  rw [← UInt8.ofNat_toNat (x := b)]
  have hb := b.toNat_lt
  generalize b.toNat = n at hb
  revert n
  decide +kernel

/-- Behind a first byte that owes two bytes stands one with which they make neither less than
U+0800 nor a surrogate. -/
theorem contains_second_three {b d : UInt8} (h : 0xE0 ≤ b.toNat) (h' : b.toNat < 0xF0) :
    (second b).contains d = true ↔ (0x80 ≤ d.toNat ∧ d.toNat ≤ 0xBF) ∧
      0x20 ≤ (b.toNat - 0xE0) * 64 + d.toNat % 64 ∧
      ((b.toNat - 0xE0) * 64 + d.toNat % 64 < 0x360 ∨
        0x380 ≤ (b.toNat - 0xE0) * 64 + d.toNat % 64) := by
  unfold second
  simp only [← UInt8.toNat_inj]
  repeat' split
  all_goals
    simp only [ByteRange.contains_iff, continuation, UInt8.reduceToNat] at *
    omega

theorem contains_second_four {b d : UInt8} (h : 0xF0 ≤ b.toNat) (h' : b.toNat < 0xF5) :
    (second b).contains d = true ↔ (0x80 ≤ d.toNat ∧ d.toNat ≤ 0xBF) ∧
      0x10 ≤ (b.toNat - 0xF0) * 64 + d.toNat % 64 ∧
      (b.toNat - 0xF0) * 64 + d.toNat % 64 < 0x110 := by
  unfold second
  simp only [← UInt8.toNat_inj]
  repeat' split
  all_goals
    simp only [ByteRange.contains_iff, continuation, UInt8.reduceToNat] at *
    omega

/-! ## The bytes of a code point -/

/-- Code points and their bytes, by size. -/
inductive Bytes (v : Nat) : List UInt8 → Prop
  | one {b} : v < 0x80 → b.toNat = v → Bytes v [b]
  | two {b d} : 0x80 ≤ v → v < 0x800 → b.toNat = 0xC0 + v / 64 → d.toNat = 0x80 + v % 64 →
      Bytes v [b, d]
  | three {b d e} : 0x800 ≤ v → v < 0x10000 → v < 0xD800 ∨ 0xDFFF < v →
      b.toNat = 0xE0 + v / 4096 → d.toNat = 0x80 + v / 64 % 64 → e.toNat = 0x80 + v % 64 →
      Bytes v [b, d, e]
  | four {b d e f} : 0x10000 ≤ v → v < 0x110000 → b.toNat = 0xF0 + v / 262144 →
      d.toNat = 0x80 + v / 4096 % 64 → e.toNat = 0x80 + v / 64 % 64 → f.toNat = 0x80 + v % 64 →
      Bytes v [b, d, e, f]

theorem bytes_of_char (c : Char) : Bytes c.toNat (utf8EncodeChar c) := by
  have hvalid : c.toNat < 0xD800 ∨ 0xDFFF < c.toNat ∧ c.toNat < 0x110000 := c.valid
  unfold utf8EncodeChar
  simp only [Char.toNat] at *
  split
  · exact .one (by omega) (by rw [UInt8.toNat_ofNat']; omega)
  split
  · refine .two (by omega) (by omega) ?_ ?_ <;> rw [UInt8.toNat_ofNat'] <;> omega
  split
  · refine .three (by omega) (by omega) (by omega) ?_ ?_ ?_ <;> rw [UInt8.toNat_ofNat'] <;> omega
  · refine .four (by omega) (by omega) ?_ ?_ ?_ ?_ <;> rw [UInt8.toNat_ofNat'] <;> omega

/-- The bytes of a code point are its own. -/
theorem Bytes.unique {v : Nat} {bs cs : List UInt8} (h : Bytes v bs) (h' : Bytes v cs) :
    bs = cs := by
  cases h <;> cases h' <;>
    simp only [List.cons.injEq, List.cons_ne_nil, and_true, and_false, ← UInt8.toNat_inj] <;> omega

theorem Bytes.exists_char {v : Nat} {bs : List UInt8} (h : Bytes v bs) :
    ∃ c : Char, c.toNat = v ∧ utf8EncodeChar c = bs := by
  have hvalid : v.isValidChar := by
    unfold Nat.isValidChar
    cases h <;> omega
  exact ⟨Char.ofNatAux v hvalid, rfl, (bytes_of_char _).unique h⟩

/-! ## Bytes that are owed -/

/-- The bytes are those owed, each in its range. -/
def Owed (rs : List ByteRange) (bs : List UInt8) : Prop :=
  List.Forall₂ (fun r b => r.contains b = true) rs bs

theorem owed_nil {bs : List UInt8} : Owed [] bs ↔ bs = [] := List.forall₂_nil_left_iff

theorem owed_cons {r : ByteRange} {rs : List ByteRange} {bs : List UInt8} :
    Owed (r :: rs) bs ↔ ∃ d ds, bs = d :: ds ∧ r.contains d = true ∧ Owed rs ds := by
  unfold Owed
  cases bs <;> simp

/-- The code point that is begun with these bits and goes on with these bytes. -/
def code (bits : Nat) (bs : List UInt8) : Nat := bs.foldl (fun v b => v * 64 + b.toNat % 64) bits

theorem code_nil (bits : Nat) : code bits [] = bits := rfl

theorem code_cons (bits : Nat) (b : UInt8) (bs : List UInt8) :
    code bits (b :: bs) = code (bits * 64 + b.toNat % 64) bs := rfl

theorem bytes_of_lead {b : UInt8} {bs : List UInt8} {lead : Lead} (hlead : lead? b = some lead)
    (hbs : Owed lead.owed bs) : Bytes (code lead.bits bs) (b :: bs) := by
  rw [lead?_eq] at hlead
  -- One case for each size of the first byte, and so for each number of bytes owed.
  split at hlead
  · obtain rfl := Option.some.inj hlead
    obtain rfl := owed_nil.mp hbs
    exact .one ‹_› rfl
  split at hlead
  · cases hlead
  split at hlead
  · obtain rfl := Option.some.inj hlead
    simp only [owed_cons, owed_nil, contains_continuation] at hbs
    obtain ⟨d, _, rfl, hd, rfl⟩ := hbs
    simp only [code_cons, code_nil]
    exact .two (by omega) (by omega) (by omega) (by omega)
  split at hlead
  · obtain rfl := Option.some.inj hlead
    simp only [owed_cons, owed_nil, contains_continuation,
      contains_second_three (b := b) (by omega) (by omega)] at hbs
    obtain ⟨d, _, rfl, hd, e, _, rfl, he, rfl⟩ := hbs
    simp only [code_cons, code_nil]
    exact .three (by omega) (by omega) (by omega) (by omega) (by omega) (by omega)
  split at hlead
  · obtain rfl := Option.some.inj hlead
    simp only [owed_cons, owed_nil, contains_continuation,
      contains_second_four (b := b) (by omega) (by omega)] at hbs
    obtain ⟨d, _, rfl, hd, e, _, rfl, he, f, _, rfl, hf, rfl⟩ := hbs
    simp only [code_cons, code_nil]
    exact .four (by omega) (by omega) (by omega) (by omega) (by omega) (by omega)
  · cases hlead

theorem Bytes.exists_lead {v : Nat} {bytes : List UInt8} (h : Bytes v bytes) :
    ∃ b bs lead, bytes = b :: bs ∧ lead? b = some lead ∧ Owed lead.owed bs ∧
      code lead.bits bs = v := by
  cases h with
  | @one b h hb =>
    refine ⟨b, [], ⟨b.toNat, []⟩, rfl, ?_, .nil, hb⟩
    rw [lead?_eq, if_pos (by omega)]
  | @two b d h h' hb hd =>
    refine ⟨b, [d], ⟨b.toNat - 0xC0, [continuation]⟩, rfl, ?_, ?_, ?_⟩
    · rw [lead?_eq, if_neg (by omega), if_neg (by omega), if_pos (by omega)]
    · exact .cons (contains_continuation.mpr (by omega)) .nil
    · simp only [code_cons, code_nil]
      omega
  | @three b d e h h' hs hb hd he =>
    refine ⟨b, [d, e], ⟨b.toNat - 0xE0, [second b, continuation]⟩, rfl, ?_, ?_, ?_⟩
    · rw [lead?_eq, if_neg (by omega), if_neg (by omega), if_neg (by omega), if_pos (by omega)]
    · exact .cons ((contains_second_three (by omega) (by omega)).mpr (by omega))
        (.cons (contains_continuation.mpr (by omega)) .nil)
    · simp only [code_cons, code_nil]
      omega
  | @four b d e f h h' hb hd he hf =>
    refine ⟨b, [d, e, f], ⟨b.toNat - 0xF0, [second b, continuation, continuation]⟩, rfl, ?_, ?_, ?_⟩
    · rw [lead?_eq, if_neg (by omega), if_neg (by omega), if_neg (by omega), if_neg (by omega),
        if_pos (by omega)]
    · exact .cons ((contains_second_four (by omega) (by omega)).mpr (by omega))
        (.cons (contains_continuation.mpr (by omega))
          (.cons (contains_continuation.mpr (by omega)) .nil))
    · simp only [code_cons, code_nil]
      omega

/-! ## Decoding -/

/-- The bytes of the characters of a text, one after another. -/
def encode (t : Text) : List UInt8 := t.flatMap utf8EncodeChar

theorem encode_cons (c : Char) (t : Text) : encode (c :: t) = utf8EncodeChar c ++ encode t :=
  List.flatMap_cons

/-- The bytes owed are read, and decoding goes on behind them. -/
theorem decodeFrom_owed {p : Begun} {bs : List UInt8} (h : Owed (p.owed :: p.later) bs) (pos : Nat)
    (rest : List UInt8) :
    decodeFrom pos (some p) (bs ++ rest) =
      (decodeFrom (pos + bs.length) none rest).map (Char.ofNat (code p.bits bs) :: ·) := by
  induction bs generalizing p pos with
  | nil => simp [owed_cons] at h
  | cons b bs ih =>
    obtain ⟨_, _, heq, hb, hlater⟩ := owed_cons.mp h
    obtain ⟨rfl, rfl⟩ := List.cons.inj heq
    rw [List.cons_append, decodeFrom, if_pos hb]
    cases hp : p.later with
    | nil =>
      rw [hp] at hlater
      obtain rfl := owed_nil.mp hlater
      rfl
    | cons r later =>
      rw [hp] at hlater
      rw [List.length_cons, Nat.add_comm bs.length, ← Nat.add_assoc]
      exact ih hlater (pos + 1)

/-- Where nothing is refused, the bytes owed were there. -/
theorem owed_of_decodeFrom {p : Begun} {bytes : List UInt8} {t : Text} {pos : Nat}
    (h : decodeFrom pos (some p) bytes = .ok t) :
    ∃ bs rest, bytes = bs ++ rest ∧ Owed (p.owed :: p.later) bs := by
  induction bytes generalizing p pos t with
  | nil => simp [decodeFrom] at h
  | cons b bytes ih =>
    rw [decodeFrom] at h
    split at h
    · next hb =>
      cases hp : p.later with
      | nil => exact ⟨[b], bytes, rfl, owed_cons.mpr ⟨b, [], rfl, hb, .nil⟩⟩
      | cons r later =>
        rw [hp] at h
        obtain ⟨bs, rest, rfl, hbs⟩ := ih h
        exact ⟨b :: bs, rest, rfl, owed_cons.mpr ⟨b, bs, rfl, hb, hbs⟩⟩
    · split at h <;> cases h

theorem decodeFrom_lead {b : UInt8} {bs : List UInt8} {lead : Lead} (hlead : lead? b = some lead)
    (hbs : Owed lead.owed bs) (pos : Nat) (rest : List UInt8) :
    decodeFrom pos none (b :: (bs ++ rest)) =
      (decodeFrom (pos + 1 + bs.length) none rest).map (Char.ofNat (code lead.bits bs) :: ·) := by
  obtain ⟨bits, owed⟩ := lead
  rw [decodeFrom, hlead]
  cases owed with
  | nil =>
    obtain rfl := owed_nil.mp hbs
    rfl
  | cons r later => exact decodeFrom_owed hbs (pos + 1) rest

theorem lead_of_decodeFrom {b : UInt8} {bytes : List UInt8} {t : Text} {pos : Nat}
    (h : decodeFrom pos none (b :: bytes) = .ok t) :
    ∃ lead bs rest, lead? b = some lead ∧ bytes = bs ++ rest ∧ Owed lead.owed bs := by
  rw [decodeFrom] at h
  cases hlead : lead? b with
  | none => simp [hlead] at h
  | some lead =>
    obtain ⟨bits, owed⟩ := lead
    rw [hlead] at h
    cases owed with
    | nil => exact ⟨_, [], bytes, rfl, rfl, .nil⟩
    | cons r later =>
      obtain ⟨bs, rest, hbytes, hbs⟩ := owed_of_decodeFrom h
      exact ⟨_, bs, rest, rfl, hbytes, hbs⟩

theorem decodeFrom_char (c : Char) (pos : Nat) (rest : List UInt8) :
    ∃ next, decodeFrom pos none (utf8EncodeChar c ++ rest) =
      (decodeFrom next none rest).map (c :: ·) := by
  obtain ⟨b, bs, lead, henc, hlead, hbs, hcode⟩ := (bytes_of_char c).exists_lead
  refine ⟨pos + 1 + bs.length, ?_⟩
  rw [henc, List.cons_append, decodeFrom_lead hlead hbs, hcode, Char.ofNat_toNat]

/-- Bytes that are decoded begin with those of a character. -/
theorem char_of_decodeFrom {b : UInt8} {bytes : List UInt8} {t : Text} {pos : Nat}
    (h : decodeFrom pos none (b :: bytes) = .ok t) :
    ∃ c rest next u, b :: bytes = utf8EncodeChar c ++ rest ∧ decodeFrom next none rest = .ok u ∧
      t = c :: u := by
  obtain ⟨lead, bs, rest, hlead, rfl, hbs⟩ := lead_of_decodeFrom h
  obtain ⟨c, _, henc⟩ := (bytes_of_lead hlead hbs).exists_char
  obtain ⟨next, hnext⟩ := decodeFrom_char c pos rest
  rw [← List.cons_append, ← henc, hnext] at h
  cases hrest : decodeFrom next none rest with
  | error fault => simp [hrest, Except.map] at h
  | ok u =>
    rw [hrest] at h
    exact ⟨c, rest, next, u, by rw [henc, List.cons_append], hrest, (Except.ok.inj h).symm⟩

theorem decodeFrom_eq_ok_iff {pos : Nat} {bytes : List UInt8} {t : Text} :
    decodeFrom pos none bytes = .ok t ↔ bytes = encode t := by
  induction t generalizing pos bytes with
  | nil =>
    cases bytes with
    | nil => simp [decodeFrom, encode]
    | cons b bytes =>
      refine iff_of_false ?_ (by simp [encode])
      intro h
      obtain ⟨_, _, _, _, _, _, hcons⟩ := char_of_decodeFrom h
      cases hcons
  | cons c t ih =>
    rw [encode_cons]
    constructor
    · intro h
      cases bytes with
      | nil => simp [decodeFrom] at h
      | cons b bytes =>
        obtain ⟨d, rest, next, u, heq, hu, hcons⟩ := char_of_decodeFrom h
        obtain ⟨rfl, rfl⟩ := List.cons.inj hcons
        rw [heq, ih.mp hu]
    · rintro rfl
      obtain ⟨next, hnext⟩ := decodeFrom_char c pos (encode t)
      rw [hnext, ih.mpr rfl]
      rfl

theorem decode_eq_ok_iff {bytes : List UInt8} {t : Text} :
    decode bytes = .ok t ↔ bytes = encode t := decodeFrom_eq_ok_iff

theorem decode_encode (t : Text) : decode (encode t) = .ok t := decode_eq_ok_iff.mpr rfl

/-- Refused are just the bytes of no text. -/
theorem exists_decode_error_iff {bytes : List UInt8} :
    (∃ fault, decode bytes = .error fault) ↔ ¬ ∃ t, bytes = encode t := by
  cases h : decode bytes with
  | error fault =>
    refine iff_of_true ⟨fault, rfl⟩ ?_
    rintro ⟨t, rfl⟩
    rw [decode_encode] at h
    cases h
  | ok t => exact iff_of_false (by simp) fun hnone => hnone ⟨t, decode_eq_ok_iff.mp h⟩

/-- A byte too many, a stray one, a surrogate, a value that is too large, an end that is missing. -/
example : [[0xC0, 0xAF], [0x80], [0xED, 0xA0, 0x80], [0xF4, 0x90, 0x80, 0x80], [0xE2, 0x82]].all
    (fun bytes => (decode bytes).toOption = none) := by decide

end SumExpr.Text.Utf8
