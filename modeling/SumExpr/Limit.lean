import SumExpr.Numeral
import SumExpr.Text.Quoted

/-! The greatest length that an expression may have: how it is read, and what an option may set it
to. An option that ends up without a value sets it to nothing, against which no length can be
compared. -/

namespace SumExpr.Limit

def standard : Nat := 4096

inductive Error
  | invalid (text : Text)
  | negative (n : Int)
  deriving DecidableEq

def Error.message : Error → Text
  | .invalid text => "invalid int value: ".toList ++ text.quoted
  | .negative n => "must be >= 0, got ".toList ++ .ofInt n

def parse (text : Text) : Except Error Nat :=
  match Numeral.parse? text with
  | none => .error (.invalid text)
  | some n => if n < 0 then .error (.negative n) else .ok n.toNat

inductive Setting
  | atMost (n : Nat)
  | empty
  deriving DecidableEq

def Setting.display : Setting → Text
  | .atMost n => .ofNat n
  | .empty => ['[', ']']

end SumExpr.Limit
