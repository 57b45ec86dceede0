import SumExpr.Text.DecimalDigit
import SumExpr.Text.Lines

/-! What a token of the command line is, by its spelling alone: a long name, which may be cut short
as long as it stays unambiguous, a group of letters, an argument, or unknown. -/

namespace SumExpr.Arguments

inductive Choice
  | help | stdin | table | maxLength | verbose
  deriving DecidableEq

namespace Choice

/-- All options, in the order in which ambiguous ones are listed. -/
def all : List Choice := [.help, .stdin, .table, .maxLength, .verbose]

def name : Choice → Text
  | .help => "help".toList
  | .stdin => "stdin".toList
  | .table => "table".toList
  | .maxLength => "max-length".toList
  | .verbose => "verbose".toList

def longName (o : Choice) : Text := '-' :: '-' :: o.name

def display : Choice → Text
  | .help => "-h/--help".toList
  | .verbose => "--verbose/-v".toList
  | o => o.longName

def candidates (stem : Text) : List Choice := all.filter fun o => stem.isPrefixOf o.name

end Choice

inductive Letter
  | h | v
  deriving DecidableEq

namespace Letter

def ofChar? (c : Char) : Option Letter :=
  if c = 'h' then some .h else if c = 'v' then some .v else none

def choice : Letter → Choice
  | .h => .help
  | .v => .verbose

end Letter

inductive Token
  | argument
  | named (o : Choice) (value : Option Text)
  | ambiguous (candidates : List Choice)
  | letters (first : Letter) (value : Option Text)
  | unknown
  deriving DecidableEq

def splitValue (text : Text) : Text × Option Text :=
  (text.takeWhile (· ≠ '='), (text.dropWhile (· ≠ '=')).tail?)

/-- Digits, or a point with digits behind it and maybe before it. One line feed may follow. -/
def isUnsignedNumber (text : Text) : Bool :=
  let body := text.dropFinal '\n'
  match body.takeWhile Text.isDigit, body.dropWhile Text.isDigit with
  | whole, [] => whole ≠ []
  | _, '.' :: fraction => fraction ≠ [] && fraction.all Text.isDigit
  | _, _ => false

namespace Token

def ofOther (afterDash : Text) : Token :=
  if isUnsignedNumber afterDash || ' ' ∈ afterDash then .argument else .unknown

def ofLong (afterDashes : Text) : Token :=
  let (stem, value) := splitValue afterDashes
  match Choice.candidates stem with
  | [] => ofOther ('-' :: afterDashes)
  | [o] => .named o value
  | several => .ambiguous several

def attached : Text → Option Text
  | [] => none
  | '=' :: rest => some rest
  | rest => some rest

def ofText : Text → Token
  | '-' :: '-' :: rest => ofLong rest
  | '-' :: c :: rest =>
    match Letter.ofChar? c with
    | some l => .letters l (attached rest)
    | none => ofOther (c :: rest)
  | _ => .argument

end Token
end SumExpr.Arguments
