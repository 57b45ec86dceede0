import SumExpr.Entries
import SumExpr.Value

/-! Transition tables as data: rows under the keys of states, and in a row the targets under the
keys of symbols. In place of a row there may be something that has no cells. A frozen table has
nothing but rows with cells, and no operation changes it. -/

namespace SumExpr

inductive Row
  | cells (cells : Entries Value)
  | null
  | number (n : Int)

abbrev Table := Entries Row

structure FrozenTable where
  rows : Entries (Entries Value)

/-- What stands in the way of an operation: something without cells, or what must not change. -/
inductive Obstacle
  | null | number | frozen
  deriving DecidableEq

def Obstacle.name : Obstacle → Text
  | .null => "NoneType".toList
  | .number => "int".toList
  | .frozen => "mappingproxy".toList

inductive TableError
  | missingKey (k : Atom)
  | noMembers (r : Obstacle)
  | noElements (r : Obstacle)
  | noCells (r : Obstacle)
  | noAssignment (r : Obstacle)
  | noDeletion (r : Obstacle)
  /-- Deletion by a whole number asks for elements by position, and there are none either. -/
  | noDeletionAt (r : Obstacle)
  /-- The number is too large for any position. -/
  | noPosition
  /-- What the message would have to show has a number with too many digits in it. -/
  | noDisplay
  deriving DecidableEq

namespace TableError

def message : TableError → Text
  | .missingKey k => k.display
  | .noMembers r => "argument of type '".toList ++ r.name ++ "' is not iterable".toList
  | .noElements r => object r ++ "is not iterable".toList
  | .noCells r => object r ++ "is not subscriptable".toList
  | .noAssignment r => object r ++ "does not support item assignment".toList
  | .noDeletion r => object r ++ "does not support item deletion".toList
  | .noDeletionAt r => object r ++ "doesn't support item deletion".toList
  | .noPosition => "cannot fit 'int' into an index-sized integer".toList
  | .noDisplay => Numeral.refusal
where
  object (r : Obstacle) : Text := ['\x27'] ++ r.name ++ "' object ".toList

end TableError

namespace Row

def obstacle? : Row → Option Obstacle
  | .cells _ => none
  | .null => some .null
  | .number _ => some .number

/-- The cells of a row; what is no row has none. -/
def cellsOf : Row → Entries Value
  | .cells c => c
  | _ => .empty

def ofList (pairs : List (Atom × Value)) : Row := .cells (.ofList pairs)

end Row

namespace FrozenTable

def toTable (t : FrozenTable) : Table := t.rows.mapValues .cells

def builtin : FrozenTable where
  rows := .ofList <| State.all.map fun s =>
    (.state s, .ofList <| Symbol.all.map fun y => (.symbol y, .atom (.state (s.next y))))

end FrozenTable

def Table.freeze (t : Table) : Except TableError FrozenTable :=
  match t.toList.findSome? fun p => p.2.obstacle? with
  | some r => .error (.noElements r)
  | none => .ok ⟨t.mapValues Row.cellsOf⟩

/-- The successor in the scanner's table. The state is looked up before the symbol. -/
def nextState (s y : Atom) : Except TableError State :=
  match State.ofKey? s.key with
  | none => .error (.missingKey s)
  | some s =>
    match Symbol.ofKey? y.key with
    | none => .error (.missingKey y)
    | some y => .ok (s.next y)

/-- Takes one successor after another. A lookup that fails leaves the state as it is. -/
def walk (s : Atom) : List Atom → List (Except TableError State)
  | [] => []
  | y :: rest =>
    match nextState s y with
    | .ok t => .ok t :: walk (.state t) rest
    | .error e => .error e :: walk s rest

end SumExpr
