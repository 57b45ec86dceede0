import SumExpr.Arguments.Parse

/-! # What the spellings of tokens are

Two dashes and a start of a name are the option of that name (`Names`): one letter is enough, since
no two names begin with the same. No letter at all leaves every option possible, and nothing else is
ambiguous (`ofText_eq_ambiguous_iff`). One dash and a known letter start a group (`StartsGroup`),
and no other token is an option (`ofText_of_no_option`). -/
namespace SumExpr.Arguments

/-! ## Names -/

namespace Choice

/-- The letter that a long name begins with. -/
def initial : Choice → Char
  | .help => 'h'
  | .stdin => 's'
  | .table => 't'
  | .maxLength => 'm'
  | .verbose => 'v'

theorem name_eq_cons (o : Choice) : o.name = o.initial :: o.name.tail := by cases o <;> rfl

theorem initial_injective {o p : Choice} (h : o.initial = p.initial) : o = p := by
  revert h
  cases o <;> cases p <;> decide

theorem equals_notMem_name (o : Choice) : '=' ∉ o.name := by cases o <;> decide

theorem mem_candidates_iff {o : Choice} {stem : Text} : o ∈ candidates stem ↔ stem <+: o.name := by
  have hall : o ∈ all := by cases o <;> decide
  simp [candidates, hall]

/-- One letter decides: two names with a start in common are the same. -/
theorem eq_of_common_start {o p : Choice} {stem : Text} (hne : stem ≠ []) (ho : stem <+: o.name)
    (hp : stem <+: p.name) : o = p := by
  obtain ⟨c, rest, rfl⟩ := List.exists_cons_of_ne_nil hne
  rw [name_eq_cons, List.cons_prefix_cons] at ho hp
  exact initial_injective (ho.1.symm.trans hp.1)

theorem candidates_of_start {o : Choice} {stem : Text} (hne : stem ≠ []) (h : stem <+: o.name) :
    candidates stem = [o] := by
  have honly : ∀ p ∈ all, stem.isPrefixOf p.name = decide (p = o) := by
    intro p _
    rw [Bool.eq_iff_iff, List.isPrefixOf_iff_prefix, decide_eq_true_eq]
    constructor
    · intro hp
      exact eq_of_common_start hne hp h
    · rintro rfl
      exact h
  rw [candidates, List.filter_congr honly]
  cases o <;> rfl

end Choice

/-! ## Values behind `=` -/

/-- How a value is attached to a name. -/
def attachment : Option Text → Text
  | none => []
  | some value => '=' :: value

theorem splitValue_append {stem : Text} (h : '=' ∉ stem) (value : Option Text) :
    splitValue (stem ++ attachment value) = (stem, value) := by
  have hstem : ∀ c ∈ stem, decide (c ≠ '=') = true := by
    intro c hc
    simpa using ne_of_mem_of_not_mem hc h
  rw [splitValue, List.takeWhile_append_of_pos hstem, List.dropWhile_append_of_pos hstem]
  cases value <;> simp [attachment]

theorem splitValue_eq_iff {text stem : Text} {value : Option Text} :
    splitValue text = (stem, value) ↔ '=' ∉ stem ∧ text = stem ++ attachment value := by
  constructor
  · intro h
    obtain ⟨rfl, rfl⟩ := Prod.mk.inj h
    have hstem : ∀ c ∈ text.takeWhile (· ≠ '='), decide (c ≠ '=') = true :=
      List.all_eq_true.mp List.all_takeWhile
    have hbehind : text.dropWhile (· ≠ '=') = attachment (text.dropWhile (· ≠ '=')).tail? := by
      have hfirst := List.head?_dropWhile_not (· ≠ '=') text
      cases hrest : text.dropWhile (· ≠ '=') with
      | nil => rfl
      | cons c rest =>
        rw [hrest] at hfirst
        simp_all [attachment]
    refine ⟨fun hmem => by simpa using hstem _ hmem, ?_⟩
    rw [← hbehind, List.takeWhile_append_dropWhile]
  · rintro ⟨h, rfl⟩
    exact splitValue_append h value

/-! ## Letters -/

namespace Letter

def char : Letter → Char
  | .h => 'h'
  | .v => 'v'

theorem ofChar?_eq_some_iff {c : Char} {l : Letter} : ofChar? c = some l ↔ c = l.char := by
  unfold ofChar?
  cases l <;> split <;> simp_all [char]

theorem char_injective {l m : Letter} (h : l.char = m.char) : l = m := by
  revert h
  cases l <;> cases m <;> decide

theorem ofChar?_char (l : Letter) : ofChar? l.char = some l := ofChar?_eq_some_iff.mpr rfl

theorem ofChar?_eq_none_iff {c : Char} : ofChar? c = none ↔ c ≠ 'h' ∧ c ≠ 'v' := by
  unfold ofChar?
  split <;> simp_all

end Letter

/-! ## Tokens -/

/-- The token is a long name, whole or cut short, with the value that is attached to it. -/
def Names (token : Text) (o : Choice) (value : Option Text) : Prop :=
  ∃ stem, stem ≠ [] ∧ stem <+: o.name ∧ token = separator ++ (stem ++ attachment value)

/-- The token is one dash and a letter, with what is attached to it. -/
def StartsGroup (token : Text) (first : Letter) (value : Option Text) : Prop :=
  ∃ rest, token = '-' :: first.char :: rest ∧ value = Token.attached rest

namespace Token

theorem ofOther_cases (afterDash : Text) :
    ofOther afterDash = .argument ∨ ofOther afterDash = .unknown := by
  unfold ofOther
  split
  · exact .inl rfl
  · exact .inr rfl

/-- Behind two dashes is a start of one name, the start of all of them, or none. -/
theorem ofLong_cases (afterDashes : Text) :
    (∃ o stem value, stem ≠ [] ∧ stem <+: o.name ∧ afterDashes = stem ++ attachment value ∧
      ofLong afterDashes = .named o value) ∨
    (∃ value, afterDashes = attachment value ∧ ofLong afterDashes = .ambiguous Choice.all) ∨
    (ofLong afterDashes = .argument ∨ ofLong afterDashes = .unknown) := by
  obtain ⟨stem, value, hsplit⟩ : ∃ stem value, splitValue afterDashes = (stem, value) := ⟨_, _, rfl⟩
  obtain ⟨_, hrest⟩ := splitValue_eq_iff.mp hsplit
  by_cases hstem : stem = []
  · subst hstem
    refine .inr (.inl ⟨value, hrest, ?_⟩)
    simp only [ofLong, hsplit]
    rfl
  · cases hcand : Choice.candidates stem with
    | nil =>
      refine .inr (.inr ?_)
      simp only [ofLong, hsplit, hcand]
      exact ofOther_cases _
    | cons o others =>
      have hpre : stem <+: o.name := Choice.mem_candidates_iff.mp (by simp [hcand])
      refine .inl ⟨o, stem, value, hstem, hpre, hrest, ?_⟩
      simp only [ofLong, hsplit, Choice.candidates_of_start hstem hpre]

/-- Behind one dash is a known letter, or the token is no option. -/
theorem ofText_short {c : Char} (hc : c ≠ '-') (rest : Text) :
    (∃ l : Letter, c = l.char ∧ ofText ('-' :: c :: rest) = .letters l (attached rest)) ∨
    (ofText ('-' :: c :: rest) = .argument ∨ ofText ('-' :: c :: rest) = .unknown) := by
  have hshort : ofText ('-' :: c :: rest) =
      (Letter.ofChar? c).elim (ofOther (c :: rest)) fun l => .letters l (attached rest) := by
    unfold ofText
    split
    · simp_all
    · next heq =>
      obtain ⟨rfl, rfl⟩ : c = _ ∧ rest = _ := by simpa using heq
      cases Letter.ofChar? c <;> rfl
    · simp_all
  rw [hshort]
  cases hl : Letter.ofChar? c with
  | some l => exact .inl ⟨l, Letter.ofChar?_eq_some_iff.mp hl, rfl⟩
  | none => exact .inr (ofOther_cases _)

/-- Everything that a token may be, with the spellings that make it so. -/
theorem ofText_cases (token : Text) :
    (∃ o value, Names token o value ∧ ofText token = .named o value) ∨
    (∃ value, token = separator ++ attachment value ∧ ofText token = .ambiguous Choice.all) ∨
    (∃ l value, StartsGroup token l value ∧ ofText token = .letters l value) ∨
    (ofText token = .argument ∨ ofText token = .unknown) := by
  by_cases hdash : ∃ c rest, token = '-' :: c :: rest
  · obtain ⟨c, rest, rfl⟩ := hdash
    by_cases hc : c = '-'
    · subst hc
      rcases ofLong_cases rest with ⟨o, stem, value, hne, hpre, rfl, hof⟩ | ⟨value, rfl, hof⟩ | hof
      · exact .inl ⟨o, value, ⟨stem, hne, hpre, rfl⟩, hof⟩
      · exact .inr (.inl ⟨value, rfl, hof⟩)
      · exact .inr (.inr (.inr hof))
    · rcases ofText_short hc rest with ⟨l, rfl, hof⟩ | hof
      · exact .inr (.inr (.inl ⟨l, _, ⟨rest, rfl, rfl⟩, hof⟩))
      · exact .inr (.inr (.inr hof))
  · refine .inr (.inr (.inr (.inl ?_)))
    unfold ofText
    split
    · exact absurd ⟨_, _, rfl⟩ hdash
    · exact absurd ⟨_, _, rfl⟩ hdash
    · rfl

theorem ofText_eq_named_iff {token : Text} {o : Choice} {value : Option Text} :
    ofText token = .named o value ↔ Names token o value := by
  constructor
  · intro h
    rcases ofText_cases token with
      ⟨p, other, hnames, hof⟩ | ⟨_, _, hof⟩ | ⟨_, _, _, hof⟩ | hof | hof
    · obtain ⟨rfl, rfl⟩ := Token.named.inj (hof.symm.trans h)
      exact hnames
    all_goals simp [hof] at h
  · rintro ⟨stem, hne, hpre, rfl⟩
    -- No name contains `=`, so that the value is split off where it was attached.
    have hequals : '=' ∉ stem := fun hmem => o.equals_notMem_name (hpre.subset hmem)
    show ofLong (stem ++ attachment value) = .named o value
    simp only [ofLong, splitValue_append hequals, Choice.candidates_of_start hne hpre]

/-- Only a name of which nothing is left is ambiguous, and it may stand for every option. -/
theorem ofText_eq_ambiguous_iff {token : Text} {candidates : List Choice} :
    ofText token = .ambiguous candidates ↔
      candidates = Choice.all ∧ ∃ value, token = separator ++ attachment value := by
  constructor
  · intro h
    rcases ofText_cases token with
      ⟨_, _, _, hof⟩ | ⟨value, htoken, hof⟩ | ⟨_, _, _, hof⟩ | hof | hof
    case inr.inl => exact ⟨Token.ambiguous.inj (h.symm.trans hof), value, htoken⟩
    all_goals simp [hof] at h
  · rintro ⟨rfl, value, rfl⟩
    cases value <;> rfl

theorem ofText_eq_letters_iff {token : Text} {first : Letter} {value : Option Text} :
    ofText token = .letters first value ↔ StartsGroup token first value := by
  constructor
  · intro h
    rcases ofText_cases token with
      ⟨_, _, _, hof⟩ | ⟨_, _, hof⟩ | ⟨l, other, hgroup, hof⟩ | hof | hof
    case inr.inr.inl =>
      obtain ⟨rfl, rfl⟩ := Token.letters.inj (h.symm.trans hof)
      exact hgroup
    all_goals simp [hof] at h
  · rintro ⟨rest, rfl, rfl⟩
    cases first <;> rfl

/-- A token that begins with neither two dashes nor one dash and a letter is no option. -/
theorem ofText_of_no_option {token : Text} (hlong : ¬ separator <+: token)
    (hletter : ∀ l : Letter, ¬ ['-', l.char] <+: token) :
    ofText token = .argument ∨ ofText token = .unknown := by
  rcases ofText_cases token with
    ⟨_, _, ⟨_, _, _, rfl⟩, _⟩ | ⟨_, rfl, _⟩ | ⟨l, _, ⟨rest, rfl, _⟩, _⟩ | hof
  · exact absurd (List.prefix_append _ _) hlong
  · exact absurd (List.prefix_append _ _) hlong
  · exact absurd ⟨rest, rfl⟩ (hletter l)
  · exact hof

end Token

/-! ## Groups of letters -/

/-- A text is letters to its end, or letters up to a character that is none. -/
theorem letters_or_other (text : Text) :
    (∃ ls : List Letter, text = ls.map Letter.char) ∨
      ∃ (ls : List Letter) (c : Char) (rest : Text),
        text = ls.map Letter.char ++ c :: rest ∧ Letter.ofChar? c = none := by
  induction text with
  | nil => exact .inl ⟨[], rfl⟩
  | cons c text ih =>
    cases hc : Letter.ofChar? c with
    | none => exact .inr ⟨[], c, text, rfl, hc⟩
    | some l =>
      obtain rfl := Letter.ofChar?_eq_some_iff.mp hc
      rcases ih with ⟨ls, rfl⟩ | ⟨ls, d, rest, rfl, hd⟩
      · exact .inl ⟨l :: ls, rfl⟩
      · exact .inr ⟨l :: ls, d, rest, rfl, hd⟩

theorem letterGroup_letters (first : Letter) (ls : List Letter) :
    letterGroup first (ls.map Letter.char) = .ok (first :: ls) := by
  induction ls generalizing first with
  | nil => rfl
  | cons l ls ih => simp [letterGroup, Letter.ofChar?_char, ih, Except.map]

/-- The mistake is laid to the last letter before it. -/
theorem letterGroup_other (first : Letter) (ls : List Letter) {c : Char}
    (hc : Letter.ofChar? c = none) (rest : Text) :
    letterGroup first (ls.map Letter.char ++ c :: rest) =
      .error (.ignoredValue (ls.getLastD first).choice (c :: rest)) := by
  induction ls generalizing first with
  | nil => simp [letterGroup, hc]
  | cons l ls ih =>
    simp only [List.map_cons, List.cons_append, letterGroup, Letter.ofChar?_char, ih, Except.map,
      List.getLastD_cons]

theorem lettersOf_some {text : Text} (h : text ≠ []) (first : Letter) :
    lettersOf first (some text) = letterGroup first text := by
  cases text with
  | nil => exact absurd rfl h
  | cons c rest => rfl

theorem lettersOf_letters {first : Letter} {value : Option Text} {ls : List Letter}
    (hne : value ≠ some []) (hvalue : value.getD [] = ls.map Letter.char) :
    lettersOf first value = .ok (first :: ls) := by
  cases value with
  | none =>
    obtain rfl : ls = [] := by simpa using hvalue
    rfl
  | some text =>
    obtain rfl : text = ls.map Letter.char := hvalue
    rw [lettersOf_some (by simpa using hne), letterGroup_letters]

theorem lettersOf_other (first : Letter) (ls : List Letter) {c : Char}
    (hc : Letter.ofChar? c = none) (rest : Text) :
    lettersOf first (some (ls.map Letter.char ++ c :: rest)) =
      .error (.ignoredValue (ls.getLastD first).choice (c :: rest)) := by
  rw [lettersOf_some (by simp), letterGroup_other first ls hc]

/-- What is attached to a letter is letters to its end, nothing behind `=`, or something else. -/
theorem group_cases (value : Option Text) :
    (∃ ls : List Letter, value ≠ some [] ∧ value.getD [] = ls.map Letter.char) ∨ value = some [] ∨
      ∃ (ls : List Letter) (c : Char) (rest : Text),
        value = some (ls.map Letter.char ++ c :: rest) ∧ Letter.ofChar? c = none := by
  cases value with
  | none => exact .inl ⟨[], by simp, rfl⟩
  | some text =>
    by_cases htext : text = []
    · exact .inr (.inl (by rw [htext]))
    · rcases letters_or_other text with ⟨ls, rfl⟩ | ⟨ls, c, rest, rfl, hc⟩
      · exact .inl ⟨ls, by simpa using htext, rfl⟩
      · exact .inr (.inr ⟨ls, c, rest, rfl, hc⟩)

end SumExpr.Arguments
