import SumExpr.Proofs.Arguments.Items
import SumExpr.Proofs.Arguments.Token
import SumExpr.Proofs.Numeral

/-! # Command lines in writing

A command line can be put together from phrases: switches and limits in any of their spellings, and
expressions that begin like no option. Whatever their order is, each phrase is read as what it was
written for (`Phrase.reads`): no option takes an expression, and no expression is taken for an
option. -/
namespace SumExpr.Arguments

/-- The options that switch something on, help apart. -/
inductive Switch
  | stdin | table | verbose
  deriving DecidableEq

def Switch.choice : Switch → Choice
  | .stdin => .stdin
  | .table => .table
  | .verbose => .verbose

/-- A long name, whole or cut short. -/
structure Name (o : Choice) where
  stem : Text
  ne_nil : stem ≠ []
  start : stem <+: o.name

/-- The name as a token, with the value that is attached to it. -/
def Name.token {o : Choice} (name : Name o) (value : Option Text) : Text :=
  separator ++ (name.stem ++ attachment value)

theorem Name.ofText_token {o : Choice} (name : Name o) (value : Option Text) :
    Token.ofText (name.token value) = .named o value :=
  Token.ofText_eq_named_iff.mpr ⟨name.stem, name.ne_nil, name.start, rfl⟩

/-- A text that begins like no option. -/
structure NoOption (e : Text) : Prop where
  long : ¬ ['-', '-'] <+: e
  help : ¬ ['-', 'h'] <+: e
  verbose : ¬ ['-', 'v'] <+: e

theorem NoOption.ofText {e : Text} (h : NoOption e) :
    Token.ofText e = .argument ∨ Token.ofText e = .unknown := by
  refine Token.ofText_of_no_option h.long ?_
  intro l
  cases l with
  | h => exact h.help
  | v => exact h.verbose

inductive Phrase
  | switch (s : Switch) (name : Name s.choice)
  /-- The letter for it, and as many more times as given. -/
  | verbose (more : Nat)
  /-- A limit behind `=`. -/
  | limit (name : Name .maxLength) (n : Numeral.Plain)
  /-- A limit in a token of its own. -/
  | limitApart (name : Name .maxLength) (n : Numeral.Plain)
  | expression (e : Text) (noOption : NoOption e)

namespace Phrase

def tokens : Phrase → List Text
  | .switch _ name => [name.token none]
  | .verbose more => ['-' :: 'v' :: List.replicate more 'v']
  | .limit name n => [name.token (some n.digits)]
  | .limitApart name n => [name.token none, n.digits]
  | .expression e _ => [e]

def switch? : Phrase → Option Switch
  | .switch s _ => some s
  | .verbose _ => some .verbose
  | _ => none

def limit? : Phrase → Option Nat
  | .limit _ n | .limitApart _ n => some n.value
  | _ => none

def expression? : Phrase → Option Text
  | .expression e _ => some e
  | _ => none

/-- What a phrase is read as. -/
def item : Phrase → Item
  | .switch s name => .switches (name.token none) [s.choice]
  | .verbose more =>
    .switches ('-' :: 'v' :: List.replicate more 'v') (.replicate (more + 1) .verbose)
  | .limit name n => .limit (name.token (some n.digits)) none (.atMost n.value)
  | .limitApart name n => .limit (name.token none) (some n.digits) (.atMost n.value)
  | .expression e _ => .expression e

theorem switchesOn_item (p : Phrase) (s : Switch) :
    p.item.switchesOn s.choice = true ↔ p.switch? = some s := by
  cases p with
  | switch r name => cases r <;> cases s <;> simp [item, Item.switchesOn, switch?, Switch.choice]
  | verbose more => cases s <;> simp [item, Item.switchesOn, switch?, Switch.choice]
  | limit | limitApart | expression => simp [item, Item.switchesOn, switch?]

theorem limit?_item (p : Phrase) : p.item.limit? = p.limit?.map .atMost := by cases p <;> rfl

theorem expression?_item (p : Phrase) : p.item.expression? = p.expression? := by cases p <;> rfl

/-! ## Reading phrases -/

theorem digits_argument (n : Numeral.Plain) : Token.ofText n.digits = .argument := by
  obtain ⟨c, rest, hdigits⟩ := List.exists_cons_of_ne_nil n.ne_nil
  have hc : c.isDigit = true := n.ascii c (by simp [hdigits])
  have hdash : c ≠ '-' := by
    rintro rfl
    exact absurd hc (by decide)
  rw [hdigits]
  unfold Token.ofText
  split
  · simp_all
  · simp_all
  · rfl

theorem limitItem_digits (token : Text) (value : Option Text) (n : Numeral.Plain) :
    limitItem token value n.digits = .ok (.limit token value (.atMost n.value)) := by
  rw [limitItem, if_neg (ne_separator_of_argument (digits_argument n)), Limit.parse_digits]

theorem item?_verbose (more : Nat) :
    item? ('-' :: 'v' :: List.replicate more 'v') =
      .ok (some (.switches ('-' :: 'v' :: List.replicate more 'v')
        (.replicate (more + 1) .verbose))) := by
  have hof : Token.ofText ('-' :: 'v' :: List.replicate more 'v') =
      .letters .v (Token.attached (List.replicate more 'v')) :=
    Token.ofText_eq_letters_iff.mpr ⟨_, rfl, rfl⟩
  have hgroup : lettersOf .v (Token.attached (List.replicate more 'v')) =
      .ok (.replicate (more + 1) .v) := by
    cases more with
    | zero => rfl
    | succ more =>
      have hletters := letterGroup_letters .v (List.replicate (more + 1) .v)
      rw [List.map_replicate] at hletters
      exact hletters
  have hhelp : .help ∉ (List.replicate (more + 1) Letter.v).map Letter.choice := by
    simp [Letter.choice]
  rw [item?_letters hof hgroup, switchItem, if_neg hhelp, List.map_replicate]
  rfl

/-- One phrase more in front. -/
theorem reads_append (p : Phrase) {rest : List Text} {its : List Item} (h : Reads rest its) :
    Reads (p.tokens ++ rest) (p.item :: its) := by
  cases p with
  | switch s name =>
    refine .one ?_ h
    rw [item?_switch (name.ofText_token none) (by cases s <;> decide)]
    cases s <;> rfl
  | verbose more => exact .one (item?_verbose more) h
  | limit name n =>
    refine .one ?_ h
    rw [item?_limit (name.ofText_token _), limitItem_digits]
    rfl
  | limitApart name n =>
    exact .two (item?_waiting (name.ofText_token none)) (digits_argument n)
      (limitItem_digits _ _ n) h
  | expression e noOption => exact .one (item?_plain noOption.ofText) h

theorem reads (phrases : List Phrase) : Reads (phrases.flatMap tokens) (phrases.map item) := by
  induction phrases with
  | nil => exact .nil
  | cons p phrases ih => exact reads_append p ih

theorem expressions_item (phrases : List Phrase) :
    (phrases.map item).filterMap Item.expression? = phrases.filterMap expression? := by
  simp only [List.filterMap_map, Function.comp_def, expression?_item]

theorem parse_phrases (phrases : List Phrase) (rest : Option (List Text)) :
    parse (phrases.flatMap tokens ++ closing rest) =
      .ok ⟨.ofItems (phrases.map item), phrases.filterMap expression? ++ rest.getD []⟩ := by
  have hexpr : ∀ e ∈ phrases.filterMap expression?, ¬ separator.isPrefixOf e := by
    intro e he
    obtain ⟨p, _, hp⟩ := List.mem_filterMap.mp he
    cases p with
    | expression e' noOption =>
      obtain rfl := Option.some.inj hp
      exact fun hpre => noOption.long (List.isPrefixOf_iff_prefix.mp hpre)
    | _ => cases hp
  rw [← expressions_item] at hexpr ⊢
  exact parse_of_reads (reads phrases) hexpr rest

/-- A switch is on just if a phrase for it occurs. -/
theorem any_switchesOn_iff (phrases : List Phrase) (s : Switch) :
    (phrases.map item).any (·.switchesOn s.choice) = true ↔ ∃ p ∈ phrases, p.switch? = some s := by
  simp [List.any_map, switchesOn_item]

/-- The limit of the last phrase for it, or the usual one. -/
theorem maxLength_ofItems (phrases : List Phrase) :
    (Settings.ofItems (phrases.map item)).maxLength =
      .atMost ((phrases.filterMap limit?).getLast?.getD Limit.standard) := by
  have hlimits : (phrases.map item).filterMap Item.limit? =
      (phrases.filterMap limit?).map .atMost := by
    simp only [List.filterMap_map, List.map_filterMap, Function.comp_def, limit?_item]
  simp only [Settings.ofItems, hlimits, List.getLast?_map]
  cases (phrases.filterMap limit?).getLast? <;> rfl

end Phrase

/-- **Written command lines are understood.** Phrases in any order, and behind them maybe a bare
`--` with any tokens at all, are taken for what they were written for. -/
theorem written_line_understood (phrases : List Phrase) (rest : Option (List Text)) :
    ∃ settings, parse (phrases.flatMap Phrase.tokens ++ closing rest) =
        .ok ⟨settings, phrases.filterMap Phrase.expression? ++ rest.getD []⟩ ∧
      (settings.stdin = true ↔ ∃ p ∈ phrases, p.switch? = some .stdin) ∧
      (settings.table = true ↔ ∃ p ∈ phrases, p.switch? = some .table) ∧
      (settings.verbose = true ↔ ∃ p ∈ phrases, p.switch? = some .verbose) ∧
      settings.maxLength = .atMost ((phrases.filterMap Phrase.limit?).getLast?.getD 4096) :=
  ⟨_, Phrase.parse_phrases phrases rest, Phrase.any_switchesOn_iff phrases .stdin,
    Phrase.any_switchesOn_iff phrases .table, Phrase.any_switchesOn_iff phrases .verbose,
    Phrase.maxLength_ofItems phrases⟩

example :
    parse ["-1+2".toList, "--st".toList, "--max=12".toList, [], "-=5".toList, "-vv".toList,
        "--m".toList, "007".toList, "--".toList, "--".toList, "--bogus".toList] =
      .ok ⟨⟨true, false, true, .atMost 7⟩,
        ["-1+2".toList, [], "-=5".toList, "--".toList, "--bogus".toList]⟩ := by
  rfl

end SumExpr.Arguments
