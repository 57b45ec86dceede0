import SumExpr.Arguments.Token
import SumExpr.Limit

/-! Reading a command line. What stands before the first bare `--` is read into items, from left to
right, and what stands behind it is expressions. Ambiguous names are refused before anything else is
done; then the first request for help or the first mistake among the items decides. -/

namespace SumExpr.Arguments

structure Settings where
  stdin : Bool
  table : Bool
  verbose : Bool
  maxLength : Limit.Setting
  deriving DecidableEq

inductive UsageError
  | ambiguous (token : Text) (candidates : List Choice)
  | missingValue (o : Choice)
  | badLimit (e : Limit.Error)
  | ignoredValue (o : Choice) (value : Text)
  | unrecognized (token : Text)
  deriving DecidableEq

namespace UsageError

def message : UsageError → Text
  | .ambiguous token candidates =>
    "ambiguous option: ".toList ++ token ++ " could match ".toList ++
      [',', ' '].intercalate (candidates.map Choice.longName)
  | .missingValue o => about o ++ "expected one argument".toList
  | .badLimit e => about .maxLength ++ e.message
  | .ignoredValue o value => about o ++ "ignored explicit argument ".toList ++ value.quoted
  | .unrecognized token => "unrecognized arguments: ".toList ++ token
where
  about (o : Choice) : Text := "argument ".toList ++ o.display ++ ": ".toList

end UsageError

inductive Stop
  | help
  | usage (e : UsageError)
  deriving DecidableEq

/-- One or two tokens that belong together, and what they mean. -/
inductive Item
  | switches (token : Text) (choices : List Choice)
  /-- A limit, in the token of its option or in the one behind it. -/
  | limit (token : Text) (value : Option Text) (setting : Limit.Setting)
  | expression (token : Text)
  deriving DecidableEq

namespace Item

def tokens : Item → List Text
  | .switches t _ => [t]
  | .limit t none _ => [t]
  | .limit t (some v) _ => [t, v]
  | .expression t => [t]

def switchesOn (o : Choice) : Item → Bool
  | .switches _ choices => o ∈ choices
  | _ => false

def limit? : Item → Option Limit.Setting
  | .limit _ _ setting => some setting
  | _ => none

def expression? : Item → Option Text
  | .expression t => some t
  | _ => none

end Item

def letterGroup (first : Letter) : Text → Except UsageError (List Letter)
  | [] => .ok [first]
  | c :: rest =>
    match Letter.ofChar? c with
    | some next => (letterGroup next rest).map (first :: ·)
    | none => .error (.ignoredValue first.choice (c :: rest))

def lettersOf (first : Letter) : Option Text → Except UsageError (List Letter)
  | none => .ok [first]
  | some [] => .error (.ignoredValue first.choice [])
  | some rest => letterGroup first rest

def switchItem (token : Text) (choices : List Choice) : Except Stop Item :=
  if .help ∈ choices then .error .help else .ok (.switches token choices)

/-- A bare `--` separates; it is never taken for a value, even where it is attached to an option. -/
def separator : Text := ['-', '-']

/-- The item of an option with a limit. If its value is a bare `--`, that is taken away, and the
option is left without a value. -/
def limitItem (token : Text) (value : Option Text) (number : Text) : Except Stop Item :=
  if number = separator then .ok (.limit token value .empty)
  else match Limit.parse number with
    | .error e => .error (.usage (.badLimit e))
    | .ok n => .ok (.limit token value (.atMost n))

/-- What a token means on its own. An option that waits for a value gives none. -/
def item? (token : Text) : Except Stop (Option Item) :=
  match Token.ofText token with
  | .argument | .unknown => .ok (some (.expression token))
  | .ambiguous candidates => .error (.usage (.ambiguous token candidates))
  | .letters first value =>
    match lettersOf first value with
    | .error e => .error (.usage e)
    | .ok letters => (switchItem token (letters.map Letter.choice)).map some
  | .named .maxLength none => .ok none
  | .named .maxLength (some value) => (limitItem token none value).map some
  | .named o (some value) => .error (.usage (.ignoredValue o value))
  | .named o none => (switchItem token [o]).map some

/-- The items of a list of tokens. An option that waits for a value takes the next token if that is
an argument. -/
def items : List Text → Except Stop (List Item)
  | [] => .ok []
  | token :: rest =>
    match item? token with
    | .error stop => .error stop
    | .ok (some item) => (items rest).map (item :: ·)
    | .ok none =>
      match rest with
      | [] => .error (.usage (.missingValue .maxLength))
      | value :: rest =>
        if Token.ofText value = .argument then
          match limitItem token (some value) value with
          | .error stop => .error stop
          | .ok item => (items rest).map (item :: ·)
        else .error (.usage (.missingValue .maxLength))

def Settings.ofItems (items : List Item) : Settings where
  stdin := items.any (·.switchesOn .stdin)
  table := items.any (·.switchesOn .table)
  verbose := items.any (·.switchesOn .verbose)
  maxLength := (items.filterMap Item.limit?).getLast?.getD (.atMost Limit.standard)

structure Invocation where
  settings : Settings
  expressions : List Text
  deriving DecidableEq

def head (argv : List Text) : List Text := argv.takeWhile (· ≠ separator)

def tail (argv : List Text) : List Text := (argv.dropWhile (· ≠ separator)).tail

def ambiguity? (token : Text) : Option UsageError :=
  match Token.ofText token with
  | .ambiguous candidates => some (.ambiguous token candidates)
  | _ => none

/-- No expression before the bare `--` may look like a long name. -/
def invocation (items : List Item) (rest : List Text) : Except Stop Invocation :=
  let expressions := items.filterMap Item.expression?
  match expressions.find? separator.isPrefixOf with
  | some token => .error (.usage (.unrecognized token))
  | none => .ok ⟨.ofItems items, expressions ++ rest⟩

def parse (argv : List Text) : Except Stop Invocation :=
  match (head argv).findSome? ambiguity? with
  | some e => .error (.usage e)
  | none =>
    match items (head argv) with
    | .error stop => .error stop
    | .ok items => invocation items (tail argv)

end SumExpr.Arguments
