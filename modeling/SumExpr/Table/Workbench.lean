import SumExpr.Table.Check

/-! A workbench: one table to be edited and one frozen table, which at first is the scanner's own.
Every step either fails and leaves both as they were, or answers. -/

namespace SumExpr

structure Workbench where
  raw : Table
  frozen : FrozenTable

namespace Workbench

/-- Which of the two tables a step is about. -/
inductive Side
  | raw | frozen
  deriving DecidableEq

inductive Step
  | setCell (on : Side) (row col : Atom) (target : Value)
  | setRow (on : Side) (row : Atom) (content : Row)
  | dropCell (on : Side) (row col : Atom)
  | dropRow (on : Side) (row : Atom)
  | get (on : Side) (row col : Atom)
  | dump (on : Side)
  | check (on : Side)
  | next (s y : Atom)
  | freeze

inductive Answer
  | done
  | value (v : Value)
  | table (t : Table)
  | messages (ms : List Text)
  | state (s : State)

def start (raw : Table) : Workbench := ⟨raw, .builtin⟩

def table (w : Workbench) : Side → Table
  | .raw => w.raw
  | .frozen => w.frozen.toTable

/-- The row under a key. -/
def rowAt (t : Table) (k : Atom) : Except TableError Row :=
  match t.get? k.key with
  | some row => .ok row
  | none => .error (.missingKey k)

/-- The cells of a row, or the refusal that its lack of cells calls for. -/
def cellsAt (refusal : Obstacle → TableError) : Row → Except TableError (Entries Value)
  | .cells c => .ok c
  | .null => .error (refusal .null)
  | .number _ => .error (refusal .number)

/-- Positions are the whole numbers of 64 bits. -/
def isPosition (n : Int) : Bool := -0x8000000000000000 ≤ n && n < 0x8000000000000000

/-- Why what is frozen refuses an assignment under `k`. -/
def assignmentRefusal : Atom → TableError
  | .int n => if isPosition n then .noAssignment .frozen else .noPosition
  | _ => .noAssignment .frozen

/-- Why what is frozen refuses a deletion under `k`. -/
def deletionRefusal : Atom → TableError
  | .int n => if isPosition n then .noDeletionAt .frozen else .noPosition
  | .bool _ => .noDeletionAt .frozen
  | _ => .noDeletion .frozen

def setCell (w : Workbench) (row col : Atom) (target : Value) : Except TableError Workbench := do
  let cells ← cellsAt .noAssignment (← rowAt w.raw row)
  return { w with raw := w.raw.put row (.cells (cells.put col target)) }

def dropCell (w : Workbench) (row col : Atom) : Except TableError Workbench := do
  let cells ← cellsAt .noDeletion (← rowAt w.raw row)
  match cells.get? col.key with
  | none => .error (.missingKey col)
  | some _ => return { w with raw := w.raw.put row (.cells (cells.erase col.key)) }

def dropRow (w : Workbench) (row : Atom) : Except TableError Workbench := do
  let _ ← rowAt w.raw row
  return { w with raw := w.raw.erase row.key }

def get (w : Workbench) (on : Side) (row col : Atom) : Except TableError Value := do
  let cells ← cellsAt .noCells (← rowAt (w.table on) row)
  match cells.get? col.key with
  | none => .error (.missingKey col)
  | some v => return v

def step (w : Workbench) : Step → Except TableError (Workbench × Answer)
  | .setCell .raw row col v => (w.setCell row col v).map (·, .done)
  | .setCell .frozen row col _ => do
    let _ ← rowAt (w.table .frozen) row
    .error (assignmentRefusal col)
  | .setRow .raw row content => .ok ({ w with raw := w.raw.put row content }, .done)
  | .setRow .frozen row _ => .error (assignmentRefusal row)
  | .dropCell .raw row col => (w.dropCell row col).map (·, .done)
  | .dropCell .frozen row col => do
    let _ ← rowAt (w.table .frozen) row
    .error (deletionRefusal col)
  | .dropRow .raw row => (w.dropRow row).map (·, .done)
  | .dropRow .frozen row => .error (deletionRefusal row)
  | .get on row col => (w.get on row col).map (w, .value ·)
  | .dump on => .ok (w, .table (w.table on))
  | .check on => (w.table on).check.map (w, .messages ·)
  | .next s y => (nextState s y).map (w, .state ·)
  | .freeze => w.raw.freeze.map fun frozen => ({ w with frozen }, .done)

/-- The workbench after the steps, and the answer to each. A failed step changes nothing. -/
def run (w : Workbench) : List Step → Workbench × List (Except TableError Answer)
  | [] => (w, [])
  | s :: rest =>
    match w.step s with
    | .ok (next, answer) =>
      let after := run next rest
      (after.1, .ok answer :: after.2)
    | .error e =>
      let after := run w rest
      (after.1, .error e :: after.2)

end Workbench
end SumExpr
