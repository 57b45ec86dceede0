import SumExpr.State

/-! The names and the wording that the program makes known. -/

namespace SumExpr.Catalog

def version : Text := "0.1.0".toList

def resultPattern : Text := "Is \"\x7bexpr\x7d\" a valid expression? \x7banswer\x7d".toList

/-- A pattern with its fields filled in, from within the name of a field or from outside of one. -/
def fillFrom (fields : List (Text × Text)) : Option Text → Text → Option Text
  | none, [] => some []
  | some _, [] => none
  | none, c :: rest =>
    if c = '\x7b' then fillFrom fields (some []) rest
    else (fillFrom fields none rest).map (c :: ·)
  | some name, c :: rest =>
    if c = '\x7d' then do return (← fields.lookup name) ++ (← fillFrom fields none rest)
    else fillFrom fields (some (name ++ [c])) rest

/-- The names of the states with a property, in alphabetical order. -/
def statesWith (p : State → Bool) : List Text :=
  ((State.all.filter p).map State.name).mergeSort Text.le

def symbols : List Text := (Symbol.all.map Symbol.name).mergeSort Text.le

/-- The public names, in the order of their groups: states, symbols, tables, scans. -/
def publicNames : List Text :=
  [ "FsmState".toList, "VALID_STATES".toList, "ACCEPTING_STATES".toList,
    "ABSORBING_STATES".toList, "INITIAL_STATE".toList,
    "Symbol".toList, "VALID_SYMBOLS".toList, "classify".toList,
    "TRANSITION_TABLE".toList, "TransitionTableError".toList, "check_table_totality".toList,
    "next_state".toList, "as_matrix".toList,
    "ScanResult".toList, "scan".toList, "final_state".toList, "is_valid_expression".toList ]

end SumExpr.Catalog
