import SumExpr.Proofs.Arguments.Parts

/-! # What ends the reading of a command line

An option may ask for help or be a mistake, by itself or together with the token behind it
(`Triggers`). The first one that is decides (`parse_of_firstEvent`), but for names of which nothing
is left, which are looked for before anything else (`parse_of_nameless`). Expressions that look like
long names are looked for last. -/
namespace SumExpr.Arguments

/-- What an option, with the token behind it, brings about. -/
inductive Triggers : Text → Option Text → Stop → Prop
  | help {token next} : Names token .help none → Triggers token next .help
  /-- Help is among the letters of a group, all of which are known. -/
  | helpLetter {token next first value ls} : StartsGroup token first value → value ≠ some [] →
      value.getD [] = ls.map Letter.char → .h ∈ first :: ls → Triggers token next .help
  /-- There is no token behind an option that waits, or none that can be its value. -/
  | missingValue {token next} : Names token .maxLength none →
      (∀ value, next = some value → Token.ofText value ≠ .argument) →
      Triggers token next (.usage (.missingValue .maxLength))
  /-- The value, in the token or behind it, is no limit. -/
  | badLimit {token next value e} :
      Names token .maxLength (some value) ∨
        Names token .maxLength none ∧ next = some value ∧ Token.ofText value = .argument →
      value ≠ separator → Limit.parse value = .error e → Triggers token next (.usage (.badLimit e))
  /-- A long name has a value that it cannot have. -/
  | ignoredValue {token next o value} : Names token o (some value) → o ≠ .maxLength →
      Triggers token next (.usage (.ignoredValue o value))
  /-- Nothing is behind the `=` of a letter. -/
  | emptyGroup {token next first} : StartsGroup token first (some []) →
      Triggers token next (.usage (.ignoredValue first.choice []))
  /-- A group goes on with a character that is no letter, which is laid to the letter before. -/
  | badLetter {token next first rest} {ls : List Letter} {c : Char} :
      StartsGroup token first (some (ls.map Letter.char ++ c :: rest)) → c ≠ 'h' → c ≠ 'v' →
      Triggers token next (.usage (.ignoredValue (ls.getLastD first).choice (c :: rest)))

/-- An option that brings nothing about. -/
def Quiet (token : Text) (next : Option Text) : Prop := ∀ stop, ¬ Triggers token next stop

/-! ## One option -/

theorem items_of_item?_error {token : Text} {stop : Stop} (h : item? token = .error stop)
    (rest : List Text) : items (token :: rest) = .error stop := by
  rw [items.eq_def]
  simp only [h]

theorem items_of_item?_ok {token : Text} {item : Item} (h : item? token = .ok (some item))
    (rest : List Text) : items (token :: rest) = (items rest).map (item :: ·) := by
  rw [items.eq_def]
  simp only [h]

theorem items_of_badValue {token value : Text} {stop : Stop}
    (h : Token.ofText token = .named .maxLength none) (hvalue : Token.ofText value = .argument)
    (herr : limitItem token (some value) value = .error stop) (rest : List Text) :
    items (token :: value :: rest) = .error stop := by
  rw [items.eq_def]
  simp only [item?_waiting h, hvalue, herr, if_true]

theorem items_of_value {token value : Text} {item : Item}
    (h : Token.ofText token = .named .maxLength none) (hvalue : Token.ofText value = .argument)
    (hok : limitItem token (some value) value = .ok item) (rest : List Text) :
    items (token :: value :: rest) = (items rest).map (item :: ·) := by
  rw [items.eq_def]
  simp only [item?_waiting h, hvalue, hok, if_true]

theorem limitItem_of_error {value : Text} {e : Limit.Error} (hsep : value ≠ separator)
    (h : Limit.parse value = .error e) (token : Text) (own : Option Text) :
    limitItem token own value = .error (.usage (.badLimit e)) := by
  rw [limitItem, if_neg hsep, h]

theorem items_of_triggers {token : Text} {rest : List Text} {stop : Stop}
    (h : Triggers token rest.head? stop) : items (token :: rest) = .error stop := by
  generalize hnext : rest.head? = next at h
  cases h with
  | help hnames =>
    refine items_of_item?_error ?_ rest
    rw [item?_switch (Token.ofText_eq_named_iff.mpr hnames) (by decide)]
    rfl
  | @helpLetter first value ls hgroup hne hvalue hmem =>
    refine items_of_item?_error ?_ rest
    have hhelp : .help ∈ (first :: ls).map Letter.choice := List.mem_map.mpr ⟨.h, hmem, rfl⟩
    rw [item?_letters (Token.ofText_eq_letters_iff.mpr hgroup) (lettersOf_letters hne hvalue),
      switchItem, if_pos hhelp]
    rfl
  | missingValue hnames hno =>
    rw [items.eq_def]
    simp only [item?_waiting (Token.ofText_eq_named_iff.mpr hnames)]
    cases rest with
    | nil => rfl
    | cons value rest => simp only [if_neg (hno value hnext.symm)]
  | badLimit hvalue hsep herr =>
    rcases hvalue with hnames | ⟨hnames, rfl, hargument⟩
    · refine items_of_item?_error ?_ rest
      rw [item?_limit (Token.ofText_eq_named_iff.mpr hnames), limitItem_of_error hsep herr]
      rfl
    · obtain ⟨more, rfl⟩ := List.head?_eq_some_iff.mp hnext
      exact items_of_badValue (Token.ofText_eq_named_iff.mpr hnames) hargument
        (limitItem_of_error hsep herr _ _) more
  | ignoredValue hnames hne =>
    exact items_of_item?_error (item?_flagValue (Token.ofText_eq_named_iff.mpr hnames) hne) rest
  | emptyGroup hgroup =>
    exact items_of_item?_error (item?_badLetters (Token.ofText_eq_letters_iff.mpr hgroup) rfl) rest
  | @badLetter first more ls c hgroup hh hv =>
    have hc : Letter.ofChar? c = none := Letter.ofChar?_eq_none_iff.mpr ⟨hh, hv⟩
    exact items_of_item?_error (item?_badLetters (Token.ofText_eq_letters_iff.mpr hgroup)
      (lettersOf_other first ls hc more)) rest

theorem limitItem_of_quiet {token value : Text} {next : Option Text}
    (hvalue : Names token .maxLength (some value) ∨
      Names token .maxLength none ∧ next = some value ∧ Token.ofText value = .argument)
    (hquiet : Quiet token next) (own : Option Text) :
    ∃ item, limitItem token own value = .ok item := by
  by_cases hsep : value = separator
  · exact ⟨.limit token own .empty, by rw [limitItem, if_pos hsep]⟩
  · cases hparse : Limit.parse value with
    | error e => exact absurd (.badLimit hvalue hsep hparse) (hquiet _)
    | ok n => exact ⟨.limit token own (.atMost n), by rw [limitItem, if_neg hsep, hparse]⟩

/-- A token that brings nothing about is an item, or it is one together with the token behind it. -/
theorem item_of_quiet {token : Text} {next : Option Text} (hamb : ambiguity? token = none)
    (hquiet : Quiet token next) :
    (∃ item, item? token = .ok (some item)) ∨
      Token.ofText token = .named .maxLength none ∧
        ∃ value item, next = some value ∧ Token.ofText value = .argument ∧
          limitItem token (some value) value = .ok item := by
  rcases Token.ofText_cases token with ⟨o, value, hnames, hof⟩ | ⟨_, _, hof⟩ |
    ⟨first, value, hgroup, hof⟩ | hof
  · by_cases ho : o = .maxLength
    · subst ho
      cases value with
      | some value =>
        obtain ⟨item, hitem⟩ := limitItem_of_quiet (.inl hnames) hquiet none
        exact .inl ⟨item, by rw [item?_limit hof, hitem]; rfl⟩
      | none =>
        cases next with
        | none => exact absurd (.missingValue hnames (by simp)) (hquiet _)
        | some value =>
          by_cases hargument : Token.ofText value = .argument
          · obtain ⟨item, hitem⟩ :=
              limitItem_of_quiet (.inr ⟨hnames, rfl, hargument⟩) hquiet (some value)
            exact .inr ⟨hof, value, item, rfl, hargument, hitem⟩
          · exact absurd (.missingValue hnames (by simpa using hargument)) (hquiet _)
    · cases value with
      | some value => exact absurd (.ignoredValue hnames ho) (hquiet _)
      | none =>
        have hhelp : o ≠ .help := by
          rintro rfl
          exact hquiet _ (.help hnames)
        refine .inl ⟨.switches token [o], ?_⟩
        rw [item?_switch hof ho, switchItem, if_neg (by simpa using Ne.symm hhelp)]
        rfl
  · simp [ambiguity?, hof] at hamb
  · rcases group_cases value with ⟨ls, hne, hvalue⟩ | rfl | ⟨ls, c, rest, rfl, hc⟩
    · have hhelp : .help ∉ (first :: ls).map Letter.choice := by
        intro hmem
        obtain ⟨l, hl, hchoice⟩ := List.mem_map.mp hmem
        cases l with
        | h => exact hquiet _ (.helpLetter hgroup hne hvalue hl)
        | v => cases hchoice
      refine .inl ⟨.switches token ((first :: ls).map Letter.choice), ?_⟩
      rw [item?_letters hof (lettersOf_letters hne hvalue), switchItem, if_neg hhelp]
      rfl
    · exact absurd (.emptyGroup hgroup) (hquiet _)
    · obtain ⟨hh, hv⟩ := Letter.ofChar?_eq_none_iff.mp hc
      exact absurd (.badLetter hgroup hh hv) (hquiet _)
  · exact .inl ⟨_, item?_plain hof⟩

/-! ## The options of a command line -/

/-- The options among the tokens, each with the token behind it. -/
def options (ts : List Text) : List (Text × Option Text) := (parts ts).filterMap Part.option?

/-- The tokens that are expressions. -/
def expressions (ts : List Text) : List Text := (parts ts).filterMap Part.expression?

/-- The first option that is not quiet brings this about. -/
def FirstEvent (occurrences : List (Text × Option Text)) (stop : Stop) : Prop :=
  ∃ before token next after, occurrences = before ++ (token, next) :: after ∧
    (∀ p ∈ before, Quiet p.1 p.2) ∧ Triggers token next stop

theorem FirstEvent.of_cons {token : Text} {next : Option Text} {rest : List (Text × Option Text)}
    {stop : Stop} (hquiet : Quiet token next) (h : FirstEvent rest stop) :
    FirstEvent ((token, next) :: rest) stop := by
  obtain ⟨before, t, n, after, rfl, hbefore, htrig⟩ := h
  exact ⟨(token, next) :: before, t, n, after, rfl, List.forall_mem_cons.mpr ⟨hquiet, hbefore⟩,
    htrig⟩

theorem FirstEvent.cons_cases {token : Text} {next : Option Text}
    {rest : List (Text × Option Text)} {stop : Stop} (h : FirstEvent ((token, next) :: rest) stop) :
    Triggers token next stop ∨ Quiet token next ∧ FirstEvent rest stop := by
  obtain ⟨before, t, n, after, heq, hbefore, htrig⟩ := h
  cases before with
  | nil =>
    cases heq
    exact .inl htrig
  | cons p before =>
    cases heq
    obtain ⟨hquiet, hbefore⟩ := List.forall_mem_cons.mp hbefore
    exact .inr ⟨hquiet, before, t, n, after, rfl, hbefore, htrig⟩

/-- If nothing comes first, there is nothing. -/
theorem quiet_of_no_firstEvent {occurrences : List (Text × Option Text)}
    (h : ∀ stop, ¬ FirstEvent occurrences stop) : ∀ p ∈ occurrences, Quiet p.1 p.2 := by
  induction occurrences with
  | nil => simp
  | cons p rest ih =>
    obtain ⟨token, next⟩ := p
    have hquiet : Quiet token next := fun stop htrig =>
      h stop ⟨[], token, next, rest, rfl, by simp, htrig⟩
    exact List.forall_mem_cons.mpr ⟨hquiet, ih fun stop hrest => h stop (.of_cons hquiet hrest)⟩

section Cons

variable {token value : Text} {rest : List Text}

theorem options_plain (h : Token.ofText token = .argument ∨ Token.ofText token = .unknown) :
    options (token :: rest) = options rest := by
  rw [options, parts_plain h]
  rfl

theorem options_waiting (h : Token.ofText token = .named .maxLength none) :
    options (token :: value :: rest) = (token, some value) :: options rest := by
  rw [options, parts_waiting h]
  rfl

theorem options_alone (h : Token.ofText token = .named .maxLength none) :
    options [token] = [(token, none)] := by
  rw [options, parts_alone h]
  rfl

theorem options_option (hargument : Token.ofText token ≠ .argument)
    (hunknown : Token.ofText token ≠ .unknown)
    (hwait : Token.ofText token ≠ .named .maxLength none) :
    options (token :: rest) = (token, rest.head?) :: options rest := by
  rw [options, parts_option hargument hunknown hwait]
  rfl

end Cons

/-- If nothing is brought about, all tokens are read. -/
theorem exists_reads_of_quiet {ts : List Text} (hamb : ∀ t ∈ ts, ambiguity? t = none)
    (hquiet : ∀ p ∈ options ts, Quiet p.1 p.2) : ∃ its, Reads ts its := by
  induction ts using parts_induction with
  | nil => exact ⟨[], .nil⟩
  | plain token rest hof ih =>
    rw [options_plain hof] at hquiet
    obtain ⟨its, hits⟩ := ih (List.forall_mem_cons.mp hamb).2 hquiet
    exact ⟨_, .one (item?_plain hof) hits⟩
  | alone token hof =>
    rw [options_alone hof] at hquiet
    have hmissing : Triggers token none (.usage (.missingValue .maxLength)) :=
      .missingValue (Token.ofText_eq_named_iff.mp hof) (by simp)
    exact absurd hmissing (hquiet _ List.mem_cons_self _)
  | waiting token value rest hof ih =>
    rw [options_waiting hof, List.forall_mem_cons] at hquiet
    rw [List.forall_mem_cons, List.forall_mem_cons] at hamb
    obtain ⟨its, hits⟩ := ih hamb.2.2 hquiet.2
    rcases item_of_quiet hamb.1 hquiet.1 with ⟨item, hitem⟩ | ⟨_, v, item, hnext, hargument, hitem⟩
    · simp [item?_waiting hof] at hitem
    · obtain rfl := Option.some.inj hnext
      exact ⟨_, .two (item?_waiting hof) hargument hitem hits⟩
  | option token rest hargument hunknown hwait ih =>
    rw [options_option hargument hunknown hwait, List.forall_mem_cons] at hquiet
    rw [List.forall_mem_cons] at hamb
    obtain ⟨its, hits⟩ := ih hamb.2 hquiet.2
    rcases item_of_quiet hamb.1 hquiet.1 with ⟨item, hitem⟩ | ⟨hof, _⟩
    · exact ⟨_, .one hitem hits⟩
    · exact absurd hof hwait

/-- The first thing that is brought about ends the reading, whatever comes behind it. -/
theorem items_of_firstEvent {ts : List Text} {stop : Stop} (hamb : ∀ t ∈ ts, ambiguity? t = none)
    (h : FirstEvent (options ts) stop) : items ts = .error stop := by
  induction ts using parts_induction with
  | nil =>
    obtain ⟨before, t, n, after, heq, _⟩ := h
    simp [options, parts] at heq
  | plain token rest hof ih =>
    rw [options_plain hof] at h
    rw [items_of_item?_ok (item?_plain hof), ih (List.forall_mem_cons.mp hamb).2 h]
    rfl
  | alone token hof =>
    rw [options_alone hof] at h
    rcases h.cons_cases with htrig | ⟨_, before, t, n, after, heq, _⟩
    · exact items_of_triggers htrig
    · simp at heq
  | waiting token value rest hof ih =>
    rw [options_waiting hof] at h
    rw [List.forall_mem_cons, List.forall_mem_cons] at hamb
    rcases h.cons_cases with htrig | ⟨hquiet, hrest⟩
    · exact items_of_triggers htrig
    · rcases item_of_quiet hamb.1 hquiet with ⟨item, hitem⟩ | ⟨_, v, item, hnext, hargument, hitem⟩
      · simp [item?_waiting hof] at hitem
      · obtain rfl := Option.some.inj hnext
        rw [items_of_value hof hargument hitem, ih hamb.2.2 hrest]
        rfl
  | option token rest hargument hunknown hwait ih =>
    rw [options_option hargument hunknown hwait] at h
    rw [List.forall_mem_cons] at hamb
    rcases h.cons_cases with htrig | ⟨hquiet, hrest⟩
    · exact items_of_triggers htrig
    · rcases item_of_quiet hamb.1 hquiet with ⟨item, hitem⟩ | ⟨hof, _⟩
      · rw [items_of_item?_ok hitem, ih hamb.2 hrest]
        rfl
      · exact absurd hof hwait

/-! ## Command lines -/

/-- A long name of which nothing is left, with a value attached. -/
def nameless : Text → Bool := ['-', '-', '='].isPrefixOf

theorem ambiguity?_eq {token : Text} (h : token ≠ separator) :
    ambiguity? token = if nameless token then some (.ambiguous token Choice.all) else none := by
  split
  · next hname =>
    obtain ⟨value, rfl⟩ := List.isPrefixOf_iff_prefix.mp hname
    rfl
  · next hname =>
    unfold ambiguity?
    split
    · next hof =>
      obtain ⟨_, value, rfl⟩ := Token.ofText_eq_ambiguous_iff.mp hof
      cases value with
      | none => exact absurd rfl h
      | some value => exact absurd (List.isPrefixOf_iff_prefix.mpr ⟨value, rfl⟩) hname
    · rfl

theorem findSome?_ambiguity? {ts : List Text} (h : separator ∉ ts) :
    ts.findSome? ambiguity? = (ts.find? nameless).map (.ambiguous · Choice.all) := by
  induction ts with
  | nil => rfl
  | cons t ts ih =>
    obtain ⟨ht, hts⟩ : separator ≠ t ∧ separator ∉ ts := by simpa using h
    rw [List.findSome?_cons, List.find?_cons, ambiguity?_eq (Ne.symm ht), ih hts]
    cases nameless t <;> rfl

variable {argv : List Text}

theorem parse_of_nameless {t : Text} (h : (head argv).find? nameless = some t) :
    parse argv = .error (.usage (.ambiguous t Choice.all)) := by
  have hfirst := findSome?_ambiguity? (separator_notMem_head argv)
  rw [h, Option.map_some] at hfirst
  simp only [parse, hfirst]

theorem unambiguous_head (h : (head argv).find? nameless = none) :
    ∀ t ∈ head argv, ambiguity? t = none := by
  rw [← List.findSome?_eq_none_iff, findSome?_ambiguity? (separator_notMem_head argv), h]
  rfl

theorem parse_of_firstEvent {stop : Stop} (hnames : (head argv).find? nameless = none)
    (h : FirstEvent (options (head argv)) stop) : parse argv = .error stop := by
  have hamb := unambiguous_head hnames
  simp only [parse, List.findSome?_eq_none_iff.mpr hamb, items_of_firstEvent hamb h]

/-- With nothing brought about, only the expressions remain to be looked at. -/
theorem parse_of_quiet (hnames : (head argv).find? nameless = none)
    (hquiet : ∀ p ∈ options (head argv), Quiet p.1 p.2) :
    (∀ t, (expressions (head argv)).find? separator.isPrefixOf = some t →
      parse argv = .error (.usage (.unrecognized t))) ∧
    ((expressions (head argv)).find? separator.isPrefixOf = none →
      ∃ inv, parse argv = .ok inv) := by
  have hamb := unambiguous_head hnames
  obtain ⟨its, hreads⟩ := exists_reads_of_quiet hamb hquiet
  simp only [parse, List.findSome?_eq_none_iff.mpr hamb, hreads.items_eq, invocation,
    hreads.parted.expressions_eq, expressions]
  constructor
  · intro t ht
    rw [ht]
  · intro hnone
    rw [hnone]
    exact ⟨_, rfl⟩

end SumExpr.Arguments
