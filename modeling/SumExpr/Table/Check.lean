import SumExpr.Table.Basic

/-! The check that a table is total and well-formed, and the table that may be built if it is. -/

namespace SumExpr

inductive Defect
  | missingRow (s : State)
  | missingEntry (s : State) (y : Symbol)
  | unknownTarget (s : State) (y : Symbol) (target : Value)
  | escape (s : State) (y : Symbol) (target : State)
  | unknownRow (k : Atom)

namespace Defect

/-- There is no message if what it would have to show cannot be displayed. -/
def message? : Defect → Option Text
  | .missingRow s => some ("missing row: ".toList ++ s.name)
  | .missingEntry s y => some ("missing entry: ".toList ++ cell s y)
  | .unknownTarget s y v =>
    v.display?.map fun shown => "unknown target: ".toList ++ cell s y ++ " -> ".toList ++ shown
  | .escape s y t =>
    some ("absorbing state escapes: ".toList ++ cell s y ++ " -> ".toList ++ t.name)
  | .unknownRow k => k.display?.map fun shown => "unknown row: ".toList ++ shown
where
  cell (s : State) (y : Symbol) : Text := s.name ++ " x ".toList ++ y.name

/-- What a check ends with that finds the defect and has no message for it. -/
def stop? (d : Defect) : Option TableError :=
  match d.message? with
  | some _ => none
  | none => some .noDisplay

end Defect

/-- The defect of one cell. An absorbing state may only lead to itself. -/
def cellDefect? (s : State) (cells : Entries Value) (y : Symbol) : Option Defect :=
  match cells.get? (Atom.symbol y).key with
  | none => some (.missingEntry s y)
  | some v =>
    match v.state? with
    | none => some (.unknownTarget s y v)
    | some t => if s.absorbing ∧ t ≠ s then some (.escape s y t) else none

/-- An order in which a check goes through the states, and one for the symbols of each. -/
structure CheckOrder where
  states : List State
  symbols : List Symbol
  states_perm : states.Perm State.all
  symbols_perm : symbols.Perm Symbol.all

def CheckOrder.declared : CheckOrder := ⟨State.all, Symbol.all, .refl _, .refl _⟩

namespace Table

/-- The row of a state, under whichever spelling of its key. -/
def row? (t : Table) (s : State) : Option Row := t.get? (Atom.state s).key

def rowDefects (t : Table) (symbols : List Symbol) (s : State) : List Defect :=
  match t.row? s with
  | none => [.missingRow s]
  | some row => symbols.filterMap (cellDefect? s row.cellsOf)

/-- A key is known if it is a state; a text that only spells one is not. -/
def foreignKey? : Atom → Option Defect
  | .state _ => none
  | k => some (.unknownRow k)

def keyDefects (t : Table) : List Defect := t.keys.filterMap foreignKey?

def defectsIn (o : CheckOrder) (t : Table) : List Defect :=
  o.states.flatMap (t.rowDefects o.symbols) ++ t.keyDefects

/-- What stops a check at the row of a state: that the row has no cells, or one of its defects. -/
def rowStop? (t : Table) (symbols : List Symbol) (s : State) : Option TableError :=
  match (t.row? s).bind Row.obstacle? with
  | some r => some (.noMembers r)
  | none => (t.rowDefects symbols s).findSome? Defect.stop?

/-- What stops a check. It comes to the states first and then to the keys. -/
def stopIn? (o : CheckOrder) (t : Table) : Option TableError :=
  (o.states.findSome? (t.rowStop? o.symbols)).or (t.keyDefects.findSome? Defect.stop?)

def checkIn (o : CheckOrder) (t : Table) : Except TableError (List Text) :=
  match t.stopIn? o with
  | some e => .error e
  | none => .ok (((t.defectsIn o).filterMap Defect.message?).mergeSort Text.le)

def check (t : Table) : Except TableError (List Text) := t.checkIn .declared

end Table

inductive BuildError
  | table (e : TableError)
  | malformed (messages : List Text)

def BuildError.message : BuildError → Text
  | .table e => e.message
  | .malformed messages =>
    "Transition table is malformed: ".toList ++ [';', ' '].intercalate messages

namespace Table

/-- A table without defects, frozen. -/
def buildIn (o : CheckOrder) (t : Table) : Except BuildError FrozenTable :=
  match t.checkIn o with
  | .error e => .error (.table e)
  | .ok [] => t.freeze.mapError .table
  | .ok (m :: messages) => .error (.malformed (m :: messages))

def build (t : Table) : Except BuildError FrozenTable := t.buildIn .declared

end Table
end SumExpr
