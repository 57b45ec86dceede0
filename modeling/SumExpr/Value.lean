import SumExpr.Atom

/-! What tables hold in their cells: atoms, and lists of values. That a list can be nested too deep
to be displayed is left out. -/

namespace SumExpr

inductive Value
  | atom (a : Atom)
  | list (items : List Value)

namespace Value

mutual

def display? : Value → Option Text
  | .atom a => a.display?
  | .list items => do return ['['] ++ [',', ' '].intercalate (← displayAll? items) ++ [']']

def displayAll? : List Value → Option (List Text)
  | [] => some []
  | v :: rest => do return (← v.display?) :: (← displayAll? rest)

end

def state? : Value → Option State
  | .atom (.state s) => some s
  | _ => none

def key? : Value → Option Key
  | .atom a => some a.key
  | .list _ => none

end Value
end SumExpr
