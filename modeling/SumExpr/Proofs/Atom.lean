import SumExpr.Proofs.Text.Quoted
import SumExpr.Value

/-! # What can be displayed, and how it is told apart

A value can be displayed unless a number in it has too many digits (`Value.display?_eq_none_iff`).

The first character of a displayed atom tells its shape: a text begins with a quote, a whole number
with a digit or a sign, and everything else has a fixed name that begins with neither. Within a
shape the display is read back, so no two atoms are displayed alike (`Atom.display?_inj`). -/
namespace SumExpr

namespace Text

end Text

/-! ## What can be displayed -/

namespace Numeral

end Numeral

namespace Value

end Value

/-! ## Telling atoms apart -/

namespace Atom

/-- How an atom is displayed. -/
inductive Shape
  | quoted | number | named

/-- The shape that a displayed atom has by its first character. -/
def Shape.ofText : Text → Shape
  | [] => .named
  | c :: _ =>
    if c = '\x27' ∨ c = '\x22' then .quoted
    else if c.isDigit ∨ c = '-' then .number
    else .named

/-- The atoms with fixed names. -/
def named : List Atom :=
  State.all.map .state ++ Symbol.all.map .symbol ++ [.bool true, .bool false, .null]

end Atom
end SumExpr
