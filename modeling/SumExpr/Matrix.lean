import SumExpr.State

/-! The successors as a matrix of ordinals, and the matrix as it is printed. -/

namespace SumExpr.Matrix

def rows : List (List Nat) :=
  State.all.map fun s => Symbol.all.map fun y => (s.next y).ordinal

def cells (texts : List Text) : Text :=
  [' '].intercalate (texts.map fun t => t.leftpad 6 ' ')

def line (head : Text) (texts : List Text) : Text := head.rightpad 22 ' ' ++ [' '] ++ cells texts

def printed : Text :=
  Text.ofLines <|
    [line [] (Symbol.all.map Symbol.name)] ++
    (State.all.zip rows).map (fun (s, row) =>
      line (.ofNat s.ordinal ++ [':'] ++ s.name) (row.map Text.ofNat)) ++
    [[]]

end SumExpr.Matrix
