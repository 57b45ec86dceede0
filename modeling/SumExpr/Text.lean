/-! Text as the list of its characters, by code point. A character is a Unicode scalar value: lone
surrogates, which some strings can hold, are left out. -/

namespace SumExpr

abbrev Text := List Char

namespace Text

def ofLines (pieces : List Text) : Text := pieces.flatMap (· ++ ['\n'])

def ofNat (n : Nat) : Text := Nat.toDigits 10 n

def ofInt (n : Int) : Text := if n < 0 then '-' :: ofNat n.natAbs else ofNat n.natAbs

def le (a b : Text) : Bool := !decide (b < a)

def hex : (width : Nat) → (n : Nat) → Text
  | 0, _ => []
  | width + 1, n => hex width (n / 16) ++ [Nat.digitChar (n % 16)]

end Text
end SumExpr
