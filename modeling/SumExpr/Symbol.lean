import SumExpr.Text

/-! The alphabet of the scanner. Every character has exactly one symbol; the digits are the ten
ASCII digits and no others. -/

namespace SumExpr

inductive Symbol
  | digit | plus | minus | other
  deriving DecidableEq

namespace Symbol

def all : List Symbol := [.digit, .plus, .minus, .other]

def name : Symbol → Text
  | .digit => "DIGIT".toList
  | .plus => "PLUS".toList
  | .minus => "MINUS".toList
  | .other => "OTHER".toList

def display (y : Symbol) : Text :=
  "<Symbol.".toList ++ y.name ++ ": '".toList ++ y.name ++ "'>".toList

def ordinal : Symbol → Nat
  | .digit => 0
  | .plus => 1
  | .minus => 2
  | .other => 3

def digits : Text := ['0', '1', '2', '3', '4', '5', '6', '7', '8', '9']

def operators : List (Char × Symbol) := [('+', .plus), ('-', .minus)]

def ofChar (c : Char) : Symbol :=
  if c ∈ digits then .digit else (operators.lookup c).getD .other

/-- The symbol of a text that should be one character: a text of any other length is `other`. -/
def classify : Text → Symbol
  | [c] => ofChar c
  | _ => .other

theorem mem_all (y : Symbol) : y ∈ all := by cases y <;> decide

end Symbol
end SumExpr
