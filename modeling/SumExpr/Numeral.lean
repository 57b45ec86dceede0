import SumExpr.Text.DecimalDigit

/-! Whole numbers as people may write them: blanks around, one sign, digits of any script, and
single underscores between digits. What may be read is limited in its digits, and so is what can be
shown. -/

namespace SumExpr.Numeral

def isBlank (c : Char) : Bool :=
  let n := c.toNat
  n = 0x20 || (0x9 ≤ n && n ≤ 0xD) || n = 0x85 || n = 0xA0 || n = 0x1680 ||
    (0x2000 ≤ n && n ≤ 0x200A) || n = 0x2028 || n = 0x2029 || n = 0x202F || n = 0x205F ||
    n = 0x3000

def trim (text : Text) : Text :=
  ((text.dropWhile isBlank).reverse.dropWhile isBlank).reverse

/-- The values of digits behind a digit, each with at most one underscore before it. -/
def moreDigits? : Text → Option (List Nat)
  | [] => some []
  | '_' :: c :: rest => do
    let d ← Text.digitValue? c
    return d :: (← moreDigits? rest)
  | c :: rest => do
    let d ← Text.digitValue? c
    return d :: (← moreDigits? rest)

def digits? : Text → Option (List Nat)
  | [] => none
  | c :: rest => do
    let d ← Text.digitValue? c
    return d :: (← moreDigits? rest)

def ofDigits (ds : List Nat) : Nat := ds.foldl (fun n d => 10 * n + d) 0

/-- A number that is read or shown may have this many digits; leading zeros count. -/
def maxDigits : Nat := 4300

def magnitude? (text : Text) : Option Nat :=
  match digits? text with
  | some ds => if ds.length ≤ maxDigits then some (ofDigits ds) else none
  | none => none

def parse? (text : Text) : Option Int :=
  match trim text with
  | '-' :: rest => (magnitude? rest).map (- Int.ofNat ·)
  | '+' :: rest => (magnitude? rest).map Int.ofNat
  | rest => (magnitude? rest).map Int.ofNat

def show? (n : Int) : Option Text :=
  if (Text.ofNat n.natAbs).length ≤ maxDigits then some (.ofInt n) else none

def refusal : Text :=
  "Exceeds the limit (".toList ++ Text.ofNat maxDigits ++
    " digits) for integer string conversion; ".toList ++
    "use sys.set_int_max_str_digits() to increase the limit".toList

end SumExpr.Numeral
