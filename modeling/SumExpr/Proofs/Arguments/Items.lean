import SumExpr.Arguments.Parse

/-! # How tokens become items

`Reads` derives the items of a list of tokens, a step for each item. It holds of exactly what
reading gives (`items_eq_ok_iff`), so that facts about items are proved by induction on it. The
first such fact is about limits: which setting counts in the end can be read off the tokens. -/
namespace SumExpr.Arguments

theorem map_eq_ok {ε α β : Type} {x : Except ε α} {f : α → β} {b : β} :
    x.map f = .ok b ↔ ∃ a, x = .ok a ∧ f a = b := by
  cases x <;> simp [Except.map]

/-- An item is read from one token, or from an option that waits for a value and its value. -/
inductive Reads : List Text → List Item → Prop
  | nil : Reads [] []
  | one {token rest item its} : item? token = .ok (some item) → Reads rest its →
      Reads (token :: rest) (item :: its)
  | two {token value rest item its} : item? token = .ok none → Token.ofText value = .argument →
      limitItem token (some value) value = .ok item → Reads rest its →
      Reads (token :: value :: rest) (item :: its)

theorem Reads.items_eq {ts : List Text} {its : List Item} (h : Reads ts its) :
    items ts = .ok its := by
  induction h with
  | nil => rfl
  | one hitem _ ih =>
    rw [items.eq_def]
    simp only [hitem, ih, Except.map]
  | two hnone hvalue hitem _ ih =>
    rw [items.eq_def]
    simp only [hnone, hvalue, hitem, ih, Except.map, if_true]

theorem reads_of_items {ts : List Text} {its : List Item} (h : items ts = .ok its) :
    Reads ts its := by
  induction ts using items.induct generalizing its with
  | case1 =>
    cases h
    exact .nil
  | case2 token rest stop hstop =>
    rw [items.eq_def] at h
    simp only [hstop, reduceCtorEq] at h
  | case3 token rest item hitem ih =>
    rw [items.eq_def] at h
    simp only [hitem] at h
    obtain ⟨more, hmore, rfl⟩ := map_eq_ok.mp h
    exact .one hitem (ih hmore)
  | case4 token hnone =>
    rw [items.eq_def] at h
    simp only [hnone, reduceCtorEq] at h
  | case5 token hnone value rest hvalue stop hstop =>
    rw [items.eq_def] at h
    simp only [hnone, hvalue, hstop, if_true, reduceCtorEq] at h
  | case6 token hnone value rest hvalue item hitem ih =>
    rw [items.eq_def] at h
    simp only [hnone, hvalue, hitem, if_true] at h
    obtain ⟨more, hmore, rfl⟩ := map_eq_ok.mp h
    exact .two hnone hvalue hitem (ih hmore)
  | case7 token hnone value rest hvalue =>
    rw [items.eq_def] at h
    simp only [hnone, hvalue, if_false, reduceCtorEq] at h

theorem items_eq_ok_iff {ts : List Text} {its : List Item} : items ts = .ok its ↔ Reads ts its :=
  ⟨reads_of_items, Reads.items_eq⟩

/-! ## Tokens on their own -/

/-- What a value sets the limit to: nothing, if it is a bare `--`. -/
def setting? (number : Text) : Option Limit.Setting :=
  if number = separator then some .empty else (Limit.parse number).toOption.map .atMost

/-- A bare `--` is the one value that sets no limit. -/
theorem eq_empty_iff_of_setting? {number : Text} {setting : Limit.Setting}
    (h : setting? number = some setting) : setting = .empty ↔ number = separator := by
  unfold setting? at h
  split at h
  · next hsep =>
    cases h
    exact iff_of_true rfl hsep
  · next hsep =>
    obtain ⟨n, _, rfl⟩ := Option.map_eq_some_iff.mp h
    exact iff_of_false (by simp) hsep

theorem limitItem_eq_ok {token number : Text} {value : Option Text} {item : Item}
    (h : limitItem token value number = .ok item) :
    ∃ setting, item = .limit token value setting ∧ setting? number = some setting := by
  unfold limitItem at h
  split at h
  · next hsep =>
    cases h
    exact ⟨.empty, rfl, by simp [setting?, hsep]⟩
  · next hsep =>
    split at h
    · cases h
    · next n hn =>
      cases h
      exact ⟨.atMost n, rfl, by simp [setting?, hsep, hn, Except.toOption]⟩

theorem switchItem_eq_ok {token : Text} {choices : List Choice} {item : Item}
    (h : switchItem token choices = .ok item) :
    .help ∉ choices ∧ item = .switches token choices := by
  unfold switchItem at h
  split at h
  · cases h
  · next hhelp =>
    cases h
    exact ⟨hhelp, rfl⟩

theorem item?_plain {token : Text}
    (h : Token.ofText token = .argument ∨ Token.ofText token = .unknown) :
    item? token = .ok (some (.expression token)) := by
  unfold item?
  rcases h with h | h <;> simp only [h]

theorem item?_letters {token : Text} {first : Letter} {value : Option Text} {letters : List Letter}
    (h : Token.ofText token = .letters first value) (hok : lettersOf first value = .ok letters) :
    item? token = (switchItem token (letters.map Letter.choice)).map some := by
  unfold item?
  simp only [h, hok]

theorem item?_badLetters {token : Text} {first : Letter} {value : Option Text} {e : UsageError}
    (h : Token.ofText token = .letters first value) (herr : lettersOf first value = .error e) :
    item? token = .error (.usage e) := by
  unfold item?
  simp only [h, herr]

theorem item?_waiting {token : Text} (h : Token.ofText token = .named .maxLength none) :
    item? token = .ok none := by
  unfold item?
  simp only [h]

theorem item?_limit {token value : Text}
    (h : Token.ofText token = .named .maxLength (some value)) :
    item? token = (limitItem token none value).map some := by
  unfold item?
  simp only [h]

theorem item?_switch {token : Text} {o : Choice} (h : Token.ofText token = .named o none)
    (hne : o ≠ .maxLength) : item? token = (switchItem token [o]).map some := by
  unfold item?
  cases o <;> simp_all

theorem item?_flagValue {token value : Text} {o : Choice}
    (h : Token.ofText token = .named o (some value)) (hne : o ≠ .maxLength) :
    item? token = .error (.usage (.ignoredValue o value)) := by
  unfold item?
  cases o <;> simp_all

/-- The one spelling after which a token waits for the next. -/
theorem ofText_of_item?_none {token : Text} (h : item? token = .ok none) :
    Token.ofText token = .named .maxLength none := by
  unfold item? at h
  split at h
  case h_5 hof => exact hof
  case h_4 =>
    split at h
    · cases h
    · obtain ⟨_, _, hsome⟩ := map_eq_ok.mp h
      cases hsome
  case h_6 | h_8 =>
    obtain ⟨_, _, hsome⟩ := map_eq_ok.mp h
    cases hsome
  all_goals cases h

/-- The spellings that make an item without a next token: an expression, a group of letters, a long
name without a value, or a limit with its value attached. -/
theorem item?_eq_ok_some {token : Text} {item : Item} (h : item? token = .ok (some item)) :
    (item = .expression token ∧
      (Token.ofText token = .argument ∨ Token.ofText token = .unknown)) ∨
    (∃ first value letters, Token.ofText token = .letters first value ∧
      lettersOf first value = .ok letters ∧ .help ∉ letters.map Letter.choice ∧
      item = .switches token (letters.map Letter.choice)) ∨
    (∃ o, Token.ofText token = .named o none ∧ o ≠ .maxLength ∧ .help ∉ [o] ∧
      item = .switches token [o]) ∨
    (∃ value setting, Token.ofText token = .named .maxLength (some value) ∧
      item = .limit token none setting ∧ setting? value = some setting) := by
  unfold item? at h
  split at h
  case h_1 hof =>
    cases h
    exact .inl ⟨rfl, .inl hof⟩
  case h_2 hof =>
    cases h
    exact .inl ⟨rfl, .inr hof⟩
  case h_3 => cases h
  case h_4 first value hof =>
    split at h
    · cases h
    · next letters hletters =>
      obtain ⟨_, hswitch, hsome⟩ := map_eq_ok.mp h
      cases hsome
      obtain ⟨hhelp, rfl⟩ := switchItem_eq_ok hswitch
      exact .inr (.inl ⟨first, value, letters, hof, hletters, hhelp, rfl⟩)
  case h_5 => cases h
  case h_6 value hof =>
    obtain ⟨_, hlimit, hsome⟩ := map_eq_ok.mp h
    cases hsome
    obtain ⟨setting, rfl, hset⟩ := limitItem_eq_ok hlimit
    exact .inr (.inr (.inr ⟨value, setting, hof, rfl, hset⟩))
  case h_7 => cases h
  case h_8 o hne hof =>
    obtain ⟨_, hswitch, hsome⟩ := map_eq_ok.mp h
    cases hsome
    obtain ⟨hhelp, rfl⟩ := switchItem_eq_ok hswitch
    exact .inr (.inr (.inl ⟨o, hof, hne, hhelp, rfl⟩))

/-! ## Limits -/

/-- What a token sets the limit to, if it is the option for it: its own value, or the next token. -/
def limitValue? (token : Text) : Option (Option Text) :=
  match Token.ofText token with
  | .named .maxLength value => some value
  | _ => none

/-- The last limit that is set is a bare `--`, attached to its option. -/
def DropsLimit (ts : List Text) : Prop :=
  (ts.filterMap limitValue?).getLast? = some (some separator)

/-- What is taken for a value has the spelling of an argument, and so is no bare `--`. -/
theorem ne_separator_of_argument {value : Text} (h : Token.ofText value = .argument) :
    value ≠ separator := by
  rintro rfl
  exact absurd h (by decide)

/-- An item that is read from one token sets a limit if the token carries one. -/
theorem limit?_of_one {token : Text} {item : Item} (h : item? token = .ok (some item)) :
    item.limit?.map (fun setting => decide (setting = .empty)) =
      (limitValue? token).map fun value => decide (value = some separator) := by
  rcases item?_eq_ok_some h with ⟨rfl, hof | hof⟩ | ⟨first, value, letters, hof, _, _, rfl⟩ |
    ⟨o, hof, hne, _, rfl⟩ | ⟨value, setting, hof, rfl, hset⟩
  · simp [limitValue?, hof, Item.limit?]
  · simp [limitValue?, hof, Item.limit?]
  · simp [limitValue?, hof, Item.limit?]
  · cases o <;> simp_all [limitValue?, Item.limit?]
  · simp [limitValue?, hof, Item.limit?, eq_empty_iff_of_setting? hset]

/-- Limits are set in the order of their options, and each to nothing just if a bare `--` is
attached to its option. -/
theorem Reads.limits {ts : List Text} {its : List Item} (h : Reads ts its) :
    (its.filterMap Item.limit?).map (fun setting => decide (setting = .empty)) =
      (ts.filterMap limitValue?).map fun value => decide (value = some separator) := by
  induction h with
  | nil => rfl
  | @one token rest item its hitem _ ih =>
    have hone := limit?_of_one hitem
    rw [List.filterMap_cons, List.filterMap_cons]
    cases hl : item.limit? <;> cases hv : limitValue? token <;>
      simp only [hl, hv, Option.map_none, Option.map_some, reduceCtorEq] at hone
    · exact ih
    · rw [List.map_cons, List.map_cons, ih, Option.some.inj hone]
  | @two token value rest item its hnone hvalue hitem _ ih =>
    obtain ⟨setting, rfl, hof⟩ := limitItem_eq_ok hitem
    have hset : setting ≠ .empty := fun he =>
      ne_separator_of_argument hvalue ((eq_empty_iff_of_setting? hof).mp he)
    have hoption : limitValue? token = some none := by
      rw [limitValue?, ofText_of_item?_none hnone]
    have hplain : limitValue? value = none := by rw [limitValue?, hvalue]
    have hlimit : (Item.limit token (some value) setting).limit? = some setting := rfl
    rw [List.filterMap_cons_some hlimit, List.filterMap_cons_some hoption,
      List.filterMap_cons_none hplain, List.map_cons, List.map_cons, ih]
    simp [hset]

/-! ## The bare `--` -/

/-- What follows the tokens that are read: a bare `--` with tokens behind it, or nothing. -/
def closing : Option (List Text) → List Text
  | none => []
  | some rest => separator :: rest

theorem separator_notMem_head (argv : List Text) : separator ∉ head argv := by
  intro hmem
  have hall := List.all_eq_true.mp (List.all_takeWhile (p := (· ≠ separator)) (l := argv))
  simpa using hall separator hmem

theorem head_append_closing {ts : List Text} (h : separator ∉ ts) (rest : Option (List Text)) :
    head (ts ++ closing rest) = ts := by
  have hts : ∀ t ∈ ts, decide (t ≠ separator) = true := by
    intro t ht
    simpa using ne_of_mem_of_not_mem ht h
  rw [head, List.takeWhile_append_of_pos hts]
  cases rest <;> simp [closing]

theorem tail_append_closing {ts : List Text} (h : separator ∉ ts) (rest : Option (List Text)) :
    tail (ts ++ closing rest) = rest.getD [] := by
  have hts : ∀ t ∈ ts, decide (t ≠ separator) = true := by
    intro t ht
    simpa using ne_of_mem_of_not_mem ht h
  rw [tail, List.dropWhile_append_of_pos hts]
  cases rest <;> simp [closing]

/-- Every command line is its head with something or nothing behind a bare `--`. -/
theorem eq_head_append_closing (argv : List Text) :
    ∃ rest, argv = head argv ++ closing rest ∧ tail argv = rest.getD [] := by
  have hwhole := List.takeWhile_append_dropWhile (p := (· ≠ separator)) (l := argv)
  have hfirst := List.head?_dropWhile_not (· ≠ separator) argv
  unfold head tail
  cases hdrop : argv.dropWhile (· ≠ separator) with
  | nil =>
    rw [hdrop] at hwhole
    exact ⟨none, hwhole.symm, rfl⟩
  | cons t rest =>
    rw [hdrop] at hwhole hfirst
    obtain rfl : t = separator := by simpa using hfirst
    exact ⟨some rest, hwhole.symm, rfl⟩

theorem ambiguity?_of_item?_ok {token : Text} {item : Option Item} (h : item? token = .ok item) :
    ambiguity? token = none := by
  unfold ambiguity?
  split
  · next hof =>
    unfold item? at h
    simp [hof] at h
  · rfl

/-- No token that is read is ambiguous. -/
theorem Reads.unambiguous {ts : List Text} {its : List Item} (h : Reads ts its) :
    ∀ t ∈ ts, ambiguity? t = none := by
  induction h with
  | nil => simp
  | one hitem _ ih => simpa using ⟨ambiguity?_of_item?_ok hitem, ih⟩
  | @two token value rest item its hnone hvalue _ _ ih =>
    have hplain : ambiguity? value = none := by rw [ambiguity?, hvalue]
    simpa using ⟨ambiguity?_of_item?_ok hnone, hplain, ih⟩

theorem Reads.separator_notMem {ts : List Text} {its : List Item} (h : Reads ts its) :
    separator ∉ ts := by
  intro hmem
  exact absurd (h.unambiguous separator hmem) (by decide)

/-! ## Command lines -/

/-- What is read is understood, unless an expression looks like a long name. -/
theorem parse_of_reads {ts : List Text} {its : List Item} (h : Reads ts its)
    (hexpr : ∀ e ∈ its.filterMap Item.expression?, ¬ separator.isPrefixOf e)
    (rest : Option (List Text)) :
    parse (ts ++ closing rest) =
      .ok ⟨.ofItems its, its.filterMap Item.expression? ++ rest.getD []⟩ := by
  have hamb : ts.findSome? ambiguity? = none := List.findSome?_eq_none_iff.mpr h.unambiguous
  have hlong : (its.filterMap Item.expression?).find? separator.isPrefixOf = none :=
    List.find?_eq_none.mpr hexpr
  simp only [parse, invocation, head_append_closing h.separator_notMem,
    tail_append_closing h.separator_notMem, hamb, h.items_eq, hlong]

/-- What is understood was read before the bare `--`, with the tokens behind it put to the end. -/
theorem parse_eq_ok {argv : List Text} {inv : Invocation} (h : parse argv = .ok inv) :
    ∃ its, Reads (head argv) its ∧
      (∀ e ∈ its.filterMap Item.expression?, ¬ separator.isPrefixOf e) ∧
      inv = ⟨.ofItems its, its.filterMap Item.expression? ++ tail argv⟩ := by
  unfold parse at h
  split at h
  · cases h
  · split at h
    · cases h
    · next its hits =>
      simp only [invocation] at h
      split at h
      · cases h
      · next hnone =>
        cases h
        exact ⟨its, reads_of_items hits, List.find?_eq_none.mp hnone, rfl⟩

/-- No limit counts in the end just if the last option for one drops it. -/
theorem maxLength_eq_empty_iff {argv : List Text} {inv : Invocation}
    (h : parse argv = .ok inv) :
    inv.settings.maxLength = .empty ↔ DropsLimit (head argv) := by
  obtain ⟨its, hreads, _, rfl⟩ := parse_eq_ok h
  have hlast := congrArg List.getLast? hreads.limits
  rw [List.getLast?_map, List.getLast?_map] at hlast
  unfold DropsLimit
  simp only [Settings.ofItems]
  cases hs : (its.filterMap Item.limit?).getLast? <;>
    cases hv : ((head argv).filterMap limitValue?).getLast? <;>
    simp only [hs, hv, Option.map_none, Option.map_some, reduceCtorEq] at hlast
  · simp
  · simpa using decide_eq_decide.mp (Option.some.inj hlast)

end SumExpr.Arguments
