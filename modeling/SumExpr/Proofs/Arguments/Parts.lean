import SumExpr.Proofs.Arguments.Items
import SumExpr.Proofs.Arguments.Token
import SumExpr.Proofs.Numeral

/-! # What becomes of every token

Each token before the bare `--` has one part: it is an option, the value of the option before it, or
an expression. Nothing else is done to it: the expressions are the tokens with that part, in their
order, followed by everything behind the bare `--`, which has no other influence. -/
namespace SumExpr.Arguments

inductive Part
  /-- An option, with the token behind it. -/
  | option (token : Text) (next : Option Text)
  /-- The value of the option before it. -/
  | value (token : Text)
  | expression (token : Text)
  deriving DecidableEq

namespace Part

def token : Part → Text
  | .option t _ => t
  | .value t => t
  | .expression t => t

def option? : Part → Option (Text × Option Text)
  | .option t next => some (t, next)
  | _ => none

def expression? : Part → Option Text
  | .expression t => some t
  | _ => none

/-- What an option sets the limit to: the value attached to it, or the token behind it. -/
def limit? : Part → Option Text
  | .option t next =>
    match Token.ofText t with
    | .named .maxLength (some own) => some own
    | .named .maxLength none => next
    | _ => none
  | _ => none

end Part

/-- The parts of the tokens. After an option that waits for a value comes the value, whatever it
is; all other tokens have their parts by themselves. -/
def parts : List Text → List Part
  | [] => []
  | token :: rest =>
    match Token.ofText token with
    | .argument | .unknown => .expression token :: parts rest
    | .named .maxLength none =>
      match rest with
      | [] => [.option token none]
      | value :: rest => .option token (some value) :: .value value :: parts rest
    | _ => .option token rest.head? :: parts rest

theorem parts_plain {token : Text}
    (h : Token.ofText token = .argument ∨ Token.ofText token = .unknown) (rest : List Text) :
    parts (token :: rest) = .expression token :: parts rest := by
  rw [parts.eq_def]
  rcases h with h | h <;> simp only [h]

theorem parts_alone {token : Text} (h : Token.ofText token = .named .maxLength none) :
    parts [token] = [.option token none] := by
  rw [parts.eq_def]
  simp only [h]

theorem parts_waiting {token : Text} (h : Token.ofText token = .named .maxLength none)
    (value : Text) (rest : List Text) :
    parts (token :: value :: rest) = .option token (some value) :: .value value :: parts rest := by
  rw [parts.eq_def]
  simp only [h]

theorem parts_option {token : Text} (hargument : Token.ofText token ≠ .argument)
    (hunknown : Token.ofText token ≠ .unknown)
    (hwait : Token.ofText token ≠ .named .maxLength none) (rest : List Text) :
    parts (token :: rest) = .option token rest.head? :: parts rest := by
  rw [parts.eq_def]
  simp only

/-- Tokens are taken one by one, but for an option that waits, which comes with its value. -/
theorem parts_induction {motive : List Text → Prop} (nil : motive [])
    (plain : ∀ token rest, Token.ofText token = .argument ∨ Token.ofText token = .unknown →
      motive rest → motive (token :: rest))
    (alone : ∀ token, Token.ofText token = .named .maxLength none → motive [token])
    (waiting : ∀ token value rest, Token.ofText token = .named .maxLength none →
      motive rest → motive (token :: value :: rest))
    (option : ∀ token rest, Token.ofText token ≠ .argument → Token.ofText token ≠ .unknown →
      Token.ofText token ≠ .named .maxLength none → motive rest → motive (token :: rest))
    (ts : List Text) : motive ts := by
  induction ts using parts.induct with
  | case1 => exact nil
  | case2 token rest hof ih => exact plain token rest (.inl hof) ih
  | case3 token rest hof ih => exact plain token rest (.inr hof) ih
  | case4 token hof => exact alone token hof
  | case5 token hof value rest ih => exact waiting token value rest hof ih
  | case6 token rest hargument hunknown hwait ih =>
    exact option token rest hargument hunknown hwait ih

theorem map_token_parts (ts : List Text) : (parts ts).map Part.token = ts := by
  induction ts using parts_induction with
  | nil => rfl
  | plain token rest hof ih =>
    rw [parts_plain hof, List.map_cons, ih]
    rfl
  | alone token hof =>
    rw [parts_alone hof]
    rfl
  | waiting token value rest hof ih =>
    rw [parts_waiting hof, List.map_cons, List.map_cons, ih]
    rfl
  | option token rest hargument hunknown hwait ih =>
    rw [parts_option hargument hunknown hwait, List.map_cons, ih]
    rfl

/-! ## Options and their values -/

/-- What stands with an option is the token behind it. -/
theorem next_of_option {ts : List Text} {i : Nat} {token : Text} {next : Option Text}
    (h : (parts ts)[i]? = some (.option token next)) : next = ts[i + 1]? := by
  induction ts using parts_induction generalizing i with
  | nil => simp [parts] at h
  | plain t rest hof ih =>
    rw [parts_plain hof] at h
    cases i with
    | zero => simp at h
    | succ i => exact ih h
  | alone t hof =>
    rw [parts_alone hof] at h
    cases i with
    | zero => simp_all
    | succ i => simp at h
  | waiting t value rest hof ih =>
    rw [parts_waiting hof] at h
    match i with
    | 0 => simp_all
    | 1 => simp at h
    | i + 2 => exact ih h
  | option t rest hargument hunknown hwait ih =>
    rw [parts_option hargument hunknown hwait] at h
    cases i with
    | zero =>
      obtain ⟨_, rfl⟩ := Part.option.inj (Option.some.inj h)
      exact List.head?_eq_getElem?
    | succ i => exact ih h

theorem head_ne_value (ts : List Text) (value : Text) : (parts ts)[0]? ≠ some (.value value) := by
  induction ts using parts_induction with
  | nil => simp [parts]
  | plain t rest hof _ => simp [parts_plain hof]
  | alone t hof => simp [parts_alone hof]
  | waiting t v rest hof _ => simp [parts_waiting hof]
  | option t rest hargument hunknown hwait _ => simp [parts_option hargument hunknown hwait]

/-- A value comes right behind an option that waits for it, and nowhere else. -/
theorem value_iff_behind_waiting {ts : List Text} {i : Nat} {value : Text} :
    (parts ts)[i + 1]? = some (.value value) ↔
      ∃ token, (parts ts)[i]? = some (.option token (some value)) ∧
        Names token .maxLength none := by
  simp only [← Token.ofText_eq_named_iff]
  -- No list of parts starts with a value, so a value and its option are found in the same step.
  induction ts using parts_induction generalizing i with
  | nil => simp [parts]
  | plain t rest hof ih =>
    rw [parts_plain hof]
    cases i with
    | zero => simpa using head_ne_value rest value
    | succ i => simpa using ih
  | alone t hof =>
    rw [parts_alone hof]
    cases i <;> simp
  | waiting t v rest hof ih =>
    rw [parts_waiting hof]
    match i with
    | 0 =>
      constructor
      · intro h
        obtain rfl := Part.value.inj (Option.some.inj h)
        exact ⟨t, rfl, hof⟩
      · rintro ⟨token, h, _⟩
        obtain ⟨_, hv⟩ := Part.option.inj (Option.some.inj h)
        rw [Option.some.inj hv]
        rfl
    | 1 => simpa using head_ne_value rest value
    | i + 2 => simpa using ih
  | option t rest hargument hunknown hwait ih =>
    rw [parts_option hargument hunknown hwait]
    cases i with
    | zero =>
      have hhead := head_ne_value rest value
      simp_all
    | succ i => simpa using ih

/-! ## Which options a token is for -/

/-- The token names the option, or it is a group with a letter for it. -/
def Resolves (token : Text) (o : Choice) : Prop :=
  (∃ value, Names token o value) ∨
    ∃ first value, StartsGroup token first value ∧
      ∃ l : Letter, (l = first ∨ l.char ∈ value.getD []) ∧ l.choice = o

theorem resolves_iff {token : Text} {o : Choice} :
    Resolves token o ↔
      match Token.ofText token with
      | .named p _ => p = o
      | .letters first value => ∃ l : Letter, (l = first ∨ l.char ∈ value.getD []) ∧ l.choice = o
      | _ => False := by
  simp only [Resolves, ← Token.ofText_eq_named_iff, ← Token.ofText_eq_letters_iff]
  cases Token.ofText token with
  | letters first value =>
    constructor
    · rintro (⟨_, h⟩ | ⟨_, _, h, hl⟩)
      · cases h
      · cases h
        exact hl
    · intro hl
      exact .inr ⟨first, value, rfl, hl⟩
  | _ => simp

theorem not_resolves_of_plain {token : Text}
    (h : Token.ofText token = .argument ∨ Token.ofText token = .unknown) (o : Choice) :
    ¬ Resolves token o := by
  rw [resolves_iff]
  rcases h with h | h <;> simp [h]

/-- Every expression is a token that resolves to no option. -/
theorem not_resolves_of_expression {ts : List Text} {e : Text} (h : .expression e ∈ parts ts)
    (o : Choice) : ¬ Resolves e o := by
  induction ts using parts_induction with
  | nil => simp [parts] at h
  | plain token rest hof ih =>
    rw [parts_plain hof, List.mem_cons] at h
    rcases h with h | h
    · obtain rfl := Part.expression.inj h
      exact not_resolves_of_plain hof o
    · exact ih h
  | alone token hof => simp [parts_alone hof] at h
  | waiting token value rest hof ih => exact ih (by simpa [parts_waiting hof] using h)
  | option token rest hargument hunknown hwait ih =>
    exact ih (by simpa [parts_option hargument hunknown hwait] using h)

/-! ## Items of options -/

/-- What the item of a token that is an option on its own has to do with its part. -/
structure OfOption (token : Text) (item : Item) : Prop where
  parts_cons : ∀ rest, parts (token :: rest) = .option token rest.head? :: parts rest
  complete : ¬ Names token .maxLength none
  expression? : item.expression? = none
  resolves : ∃ o, Resolves token o
  switchesOn : ∀ o, o ≠ .maxLength → (item.switchesOn o = true ↔ Resolves token o)
  limit? : ∀ next, (Part.option token next).limit?.map setting? = item.limit?.map some

theorem ofOption_letters {token : Text} {first : Letter} {value : Option Text}
    {letters : List Letter} (hof : Token.ofText token = .letters first value)
    (h : lettersOf first value = .ok letters) :
    OfOption token (.switches token (letters.map Letter.choice)) := by
  obtain ⟨ls, hvalue, rfl⟩ : ∃ ls : List Letter, value.getD [] = ls.map Letter.char ∧
      first :: ls = letters := by
    rcases group_cases value with ⟨ls, hne, hvalue⟩ | rfl | ⟨ls, c, rest, rfl, hc⟩
    · exact ⟨ls, hvalue, Except.ok.inj ((lettersOf_letters hne hvalue).symm.trans h)⟩
    · simp [lettersOf] at h
    · simp [lettersOf_other first ls hc] at h
  have hmem : ∀ l : Letter, l.char ∈ value.getD [] ↔ l ∈ ls := by
    intro l
    rw [hvalue, List.mem_map]
    constructor
    · rintro ⟨m, hm, hchar⟩
      rwa [← Letter.char_injective hchar]
    · intro hl
      exact ⟨l, hl, rfl⟩
  refine ⟨fun rest => parts_option (by simp [hof]) (by simp [hof]) (by simp [hof]) rest, ?_, rfl,
    ⟨first.choice, ?_⟩, ?_, ?_⟩
  · rw [← Token.ofText_eq_named_iff, hof]
    simp
  · rw [resolves_iff, hof]
    exact ⟨first, .inl rfl, rfl⟩
  · intro o _
    rw [resolves_iff, hof]
    simp [Item.switchesOn, hmem, eq_comm (a := o)]
  · intro next
    simp [Part.limit?, hof, Item.limit?]

theorem ofOption_named {token : Text} {o : Choice} (hof : Token.ofText token = .named o none)
    (hne : o ≠ .maxLength) : OfOption token (.switches token [o]) := by
  refine ⟨fun rest => parts_option (by simp [hof]) (by simp [hof]) (by simp [hof, hne]) rest, ?_,
    rfl, ⟨o, ?_⟩, ?_, ?_⟩
  · rw [← Token.ofText_eq_named_iff, hof]
    simp [hne]
  · rw [resolves_iff, hof]
  · intro p _
    rw [resolves_iff, hof]
    simp [Item.switchesOn, eq_comm]
  · intro next
    cases o <;> simp_all [Part.limit?, Item.limit?]

theorem ofOption_limit {token value : Text} {setting : Limit.Setting}
    (hof : Token.ofText token = .named .maxLength (some value))
    (hset : setting? value = some setting) : OfOption token (.limit token none setting) := by
  refine ⟨fun rest => parts_option (by simp [hof]) (by simp [hof]) (by simp [hof]) rest, ?_, rfl,
    ⟨.maxLength, ?_⟩, ?_, ?_⟩
  · rw [← Token.ofText_eq_named_iff, hof]
    simp
  · rw [resolves_iff, hof]
  · intro p hp
    rw [resolves_iff, hof]
    simp [Item.switchesOn, Ne.symm hp]
  · intro next
    simp [Part.limit?, hof, Item.limit?, hset]

/-- A token with an item of its own is an expression or an option. -/
theorem item?_cases {token : Text} {item : Item} (h : item? token = .ok (some item)) :
    (item = .expression token ∧
      (Token.ofText token = .argument ∨ Token.ofText token = .unknown)) ∨ OfOption token item := by
  rcases item?_eq_ok_some h with hexpr | ⟨first, value, letters, hof, hletters, _, rfl⟩ |
    ⟨o, hof, hne, _, rfl⟩ | ⟨value, setting, hof, rfl, hset⟩
  · exact .inl hexpr
  · exact .inr (ofOption_letters hof hletters)
  · exact .inr (ofOption_named hof hne)
  · exact .inr (ofOption_limit hof hset)

/-! ## Parts of tokens that are read -/

/-- Items beside the parts that they are read from. -/
inductive Parted : List Item → List Part → Prop
  | nil : Parted [] []
  | expression {its ps} (token : Text) : Parted its ps →
      Parted (.expression token :: its) (.expression token :: ps)
  | option {token item its ps} (next : Option Text) : OfOption token item → Parted its ps →
      Parted (item :: its) (.option token next :: ps)
  | waiting {token value setting its ps} : Token.ofText token = .named .maxLength none →
      setting? value = some setting → Parted its ps →
      Parted (.limit token (some value) setting :: its)
        (.option token (some value) :: .value value :: ps)

theorem Reads.parted {ts : List Text} {its : List Item} (h : Reads ts its) :
    Parted its (parts ts) := by
  induction h with
  | nil => exact .nil
  | @one token rest _ _ hitem _ ih =>
    rcases item?_cases hitem with ⟨rfl, hof⟩ | hopt
    · rw [parts_plain hof]
      exact .expression token ih
    · rw [hopt.parts_cons]
      exact .option rest.head? hopt ih
  | two hnone _ hitem _ ih =>
    obtain ⟨setting, rfl, hset⟩ := limitItem_eq_ok hitem
    have hwait := ofText_of_item?_none hnone
    rw [parts_waiting hwait]
    exact .waiting hwait hset ih

namespace Parted

variable {its : List Item} {ps : List Part}

theorem expressions_eq (h : Parted its ps) :
    its.filterMap Item.expression? = ps.filterMap Part.expression? := by
  induction h with
  | nil => rfl
  | expression token _ ih => simp [Item.expression?, Part.expression?, ih]
  | option next hopt _ ih => simp [List.filterMap_cons, hopt.expression?, Part.expression?, ih]
  | waiting _ _ _ ih => simp [List.filterMap_cons, Item.expression?, Part.expression?, ih]

/-- The values of the limits give the settings, in their order. -/
theorem limits_eq (h : Parted its ps) :
    (ps.filterMap Part.limit?).map setting? = (its.filterMap Item.limit?).map some := by
  induction h with
  | nil => rfl
  | expression token _ ih => simpa [List.filterMap_cons, Item.limit?, Part.limit?] using ih
  | @option token item _ _ next hopt _ ih =>
    have hlimit := hopt.limit? next
    rw [List.filterMap_cons, List.filterMap_cons]
    cases hp : (Part.option token next).limit? <;> cases hi : item.limit? <;> simp_all
  | waiting hwait hset _ ih =>
    simpa [List.filterMap_cons, Item.limit?, Part.limit?, hwait, hset] using ih

/-- Every option has an item of its own, or waits for a value and has one. -/
theorem option_cases (h : Parted its ps) {token : Text} {next : Option Text}
    (hmem : .option token next ∈ ps) :
    (∃ item ∈ its, OfOption token item) ∨
      Token.ofText token = .named .maxLength none ∧ ∃ value, next = some value := by
  induction h with
  | nil => cases hmem
  | expression _ _ ih =>
    have hcases := ih (by simpa using hmem)
    exact hcases.imp_left fun ⟨item, hitem, hopt⟩ => ⟨item, List.mem_cons_of_mem _ hitem, hopt⟩
  | option _ hopt _ ih =>
    rcases List.mem_cons.mp hmem with heq | hmem
    · obtain ⟨rfl, _⟩ := Part.option.inj heq
      exact .inl ⟨_, List.mem_cons_self, hopt⟩
    · exact (ih hmem).imp_left fun ⟨item, hitem, hopt⟩ =>
        ⟨item, List.mem_cons_of_mem _ hitem, hopt⟩
  | waiting hwait _ _ ih =>
    rcases List.mem_cons.mp hmem with heq | hmem
    · obtain ⟨rfl, hnext⟩ := Part.option.inj heq
      exact .inr ⟨hwait, _, hnext⟩
    · have hcases := ih (by simpa using hmem)
      exact hcases.imp_left fun ⟨item, hitem, hopt⟩ => ⟨item, List.mem_cons_of_mem _ hitem, hopt⟩

/-- Every item is that of an option, or it switches nothing on. -/
theorem item_cases (h : Parted its ps) {item : Item} (hmem : item ∈ its) :
    (∃ token next, .option token next ∈ ps ∧ OfOption token item) ∨
      ∀ o, item.switchesOn o = false := by
  induction h with
  | nil => cases hmem
  | expression _ _ ih =>
    rcases List.mem_cons.mp hmem with rfl | hmem
    · exact .inr fun _ => rfl
    · exact (ih hmem).imp_left fun ⟨t, next, hpart, hopt⟩ =>
        ⟨t, next, List.mem_cons_of_mem _ hpart, hopt⟩
  | option _ hopt _ ih =>
    rcases List.mem_cons.mp hmem with rfl | hmem
    · exact .inl ⟨_, _, List.mem_cons_self, hopt⟩
    · exact (ih hmem).imp_left fun ⟨t, next, hpart, hopt⟩ =>
        ⟨t, next, List.mem_cons_of_mem _ hpart, hopt⟩
  | waiting _ _ _ ih =>
    rcases List.mem_cons.mp hmem with rfl | hmem
    · exact .inr fun _ => rfl
    · exact (ih hmem).imp_left fun ⟨t, next, hpart, hopt⟩ => ⟨t, next, by simp [hpart], hopt⟩

theorem option_resolves (h : Parted its ps) {token : Text} {next : Option Text}
    (hmem : .option token next ∈ ps) : ∃ o, Resolves token o := by
  rcases h.option_cases hmem with ⟨_, _, hopt⟩ | ⟨hwait, _⟩
  · exact hopt.resolves
  · exact ⟨.maxLength, resolves_iff.mpr (by rw [hwait])⟩

theorem waiting_has_value (h : Parted its ps) {token : Text} {next : Option Text}
    (hmem : .option token next ∈ ps) (hnames : Names token .maxLength none) :
    ∃ value, next = some value := by
  rcases h.option_cases hmem with ⟨_, _, hopt⟩ | ⟨_, hnext⟩
  · exact absurd hnames hopt.complete
  · exact hnext

/-- A switch is on just if one of the options resolves to it. -/
theorem any_switchesOn_iff (h : Parted its ps) {o : Choice} (hne : o ≠ .maxLength) :
    its.any (·.switchesOn o) = true ↔ ∃ token next, .option token next ∈ ps ∧ Resolves token o := by
  rw [List.any_eq_true]
  constructor
  · rintro ⟨item, hitem, hon⟩
    rcases h.item_cases hitem with ⟨token, next, hmem, hopt⟩ | hoff
    · exact ⟨token, next, hmem, (hopt.switchesOn o hne).mp hon⟩
    · simp [hoff o] at hon
  · rintro ⟨token, next, hmem, hres⟩
    rcases h.option_cases hmem with ⟨item, hitem, hopt⟩ | ⟨hwait, _⟩
    · exact ⟨item, hitem, (hopt.switchesOn o hne).mpr hres⟩
    · rw [resolves_iff, hwait] at hres
      exact absurd hres.symm hne

/-- The limit is that of the last option for one. -/
theorem maxLength_eq (h : Parted its ps) :
    match (ps.filterMap Part.limit?).getLast? with
    | none => (Settings.ofItems its).maxLength = .atMost Limit.standard
    | some v => setting? v = some (Settings.ofItems its).maxLength := by
  have hlast := congrArg List.getLast? h.limits_eq
  rw [List.getLast?_map, List.getLast?_map] at hlast
  simp only [Settings.ofItems]
  cases hv : (ps.filterMap Part.limit?).getLast? <;>
    cases hs : (its.filterMap Item.limit?).getLast? <;>
    simp only [hv, hs, Option.map_none, Option.map_some, reduceCtorEq, Option.some.injEq] at hlast
  · rfl
  · exact hlast

end Parted

/-! ## Command lines -/

/-- What is behind the bare `--` is put to the expressions, and has no other influence. -/
theorem parse_append_closing {ts : List Text} (h : separator ∉ ts) (rest : Option (List Text)) :
    parse (ts ++ closing rest) =
      (parse ts).map fun inv => ⟨inv.settings, inv.expressions ++ rest.getD []⟩ := by
  have hhead : head ts = ts := by simpa [closing] using head_append_closing h none
  have htail : tail ts = [] := by simpa [closing] using tail_append_closing h none
  simp only [parse, head_append_closing h, tail_append_closing h, hhead, htail]
  cases ts.findSome? ambiguity? with
  | some e => rfl
  | none =>
    cases items ts with
    | error stop => rfl
    | ok its =>
      simp only [invocation]
      cases (its.filterMap Item.expression?).find? separator.isPrefixOf with
      | some token => rfl
      | none => simp [Except.map]

/-- What the tokens of a command line become, if it is understood. -/
structure Conserves (argv : List Text) (inv : Invocation) : Prop where
  /-- The tokens that have parts are those before the first bare `--`. -/
  cut : separator ∉ head argv ∧
    ∃ rest, argv = head argv ++ closing rest ∧ tail argv = rest.getD []
  tokens : (parts (head argv)).map Part.token = head argv
  option : ∀ token next, .option token next ∈ parts (head argv) → ∃ o, Resolves token o
  behind : ∀ i token next, (parts (head argv))[i]? = some (.option token next) →
    next = (head argv)[i + 1]?
  value : ∀ i v, (parts (head argv))[i]? = some (.value v) ↔
    ∃ j token, i = j + 1 ∧ (parts (head argv))[j]? = some (.option token (some v)) ∧
      Names token .maxLength none
  /-- Every option that waits for a value gets one. -/
  waiting : ∀ token next, .option token next ∈ parts (head argv) → Names token .maxLength none →
    ∃ v, next = some v
  expression : ∀ e, .expression e ∈ parts (head argv) →
    (∀ o, ¬ Resolves e o) ∧ ¬ separator <+: e
  expressions : inv.expressions = (parts (head argv)).filterMap Part.expression? ++ tail argv
  stdin : inv.settings.stdin = true ↔
    ∃ token next, .option token next ∈ parts (head argv) ∧ Resolves token .stdin
  table : inv.settings.table = true ↔
    ∃ token next, .option token next ∈ parts (head argv) ∧ Resolves token .table
  verbose : inv.settings.verbose = true ↔
    ∃ token next, .option token next ∈ parts (head argv) ∧ Resolves token .verbose
  usual : ((parts (head argv)).filterMap Part.limit?).getLast? = none →
    inv.settings.maxLength = .atMost 4096
  number : ∀ v, ((parts (head argv)).filterMap Part.limit?).getLast? = some v → v ≠ separator →
    ∃ n : Nat, Numeral.parse? v = some (n : Int) ∧ inv.settings.maxLength = .atMost n
  dropped : ((parts (head argv)).filterMap Part.limit?).getLast? = some separator →
    inv.settings.maxLength = .empty

theorem conserves_of_parse {argv : List Text} {inv : Invocation} (h : parse argv = .ok inv) :
    Conserves argv inv := by
  obtain ⟨its, hreads, hexpr, rfl⟩ := parse_eq_ok h
  have hparted := hreads.parted
  have hlimit := hparted.maxLength_eq
  refine {
    cut := ⟨separator_notMem_head argv, eq_head_append_closing argv⟩
    tokens := map_token_parts _
    option := fun _ _ hmem => hparted.option_resolves hmem
    behind := fun _ _ _ hpart => next_of_option hpart
    value := ?_
    waiting := ?_
    expression := ?_
    expressions := by rw [hparted.expressions_eq]
    stdin := hparted.any_switchesOn_iff (by decide)
    table := hparted.any_switchesOn_iff (by decide)
    verbose := hparted.any_switchesOn_iff (by decide)
    usual := ?_
    number := ?_
    dropped := ?_ }
  · intro i v
    cases i with
    | zero => simpa using head_ne_value _ v
    | succ i => simp [value_iff_behind_waiting]
  · intro token next hmem hnames
    exact hparted.waiting_has_value hmem hnames
  · intro e hmem
    refine ⟨not_resolves_of_expression hmem, ?_⟩
    rw [← List.isPrefixOf_iff_prefix]
    refine hexpr e ?_
    rw [hparted.expressions_eq]
    exact List.mem_filterMap.mpr ⟨_, hmem, rfl⟩
  · intro hnone
    rw [hnone] at hlimit
    exact hlimit
  · intro v hv hsep
    rw [hv] at hlimit
    simp only [setting?, if_neg hsep] at hlimit
    obtain ⟨n, hn, hmax⟩ := Option.map_eq_some_iff.mp hlimit
    refine ⟨n, Limit.parse_eq_ok_iff.mp ?_, hmax.symm⟩
    cases hparse : Limit.parse v <;> simp_all [Except.toOption]
  · intro hsep
    rw [hsep] at hlimit
    exact (eq_empty_iff_of_setting? hlimit).mpr rfl

/-- **Nothing is lost.** Of a command line that is understood every token has its part, and the
expressions are those with this part and all behind the first bare `--`, as they are. What is there
has no influence on anything else: with it or without it there is the same answer, and the same
settings. -/
theorem tokens_conserved (argv : List Text) :
    (∀ inv, parse argv = .ok inv → Conserves argv inv) ∧
      ∀ rest : List Text, parse (head argv ++ separator :: rest) =
        (parse (head argv)).map fun inv => ⟨inv.settings, inv.expressions ++ rest⟩ :=
  ⟨fun _ => conserves_of_parse, fun rest =>
    parse_append_closing (separator_notMem_head argv) (some rest)⟩

theorem tokens_conserved_sample :
    Conserves ["-1".toList, "--m".toList, "5".toList, "-vv".toList, "--".toList, "-v".toList]
      ⟨⟨false, false, true, .atMost 5⟩, ["-1".toList, "-v".toList]⟩ :=
  (tokens_conserved _).1 _ rfl

/-- A bare `--` attached to the option counts as the last limit, and it is no number. -/
theorem attached_separator_is_no_number :
    parse ["--max-length=--".toList] = .ok ⟨⟨false, false, false, .empty⟩, []⟩ ∧
      ((parts ["--max-length=--".toList]).filterMap Part.limit?).getLast? = some separator ∧
      Numeral.parse? separator = none :=
  ⟨rfl, rfl, rfl⟩

end SumExpr.Arguments
