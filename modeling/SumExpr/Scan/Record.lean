import SumExpr.Scan
import SumExpr.Value

/-! The result of a scan as a record with two named fields. It can be read, shown and compared, but
never changed. -/

namespace SumExpr

inductive FieldError
  | missing (field : Text)
  | assignment (field : Text)
  | deletion (field : Text)
  deriving DecidableEq

def FieldError.message : FieldError → Text
  | .missing f => "'ScanResult' object has no attribute '".toList ++ f ++ ['\x27']
  | .assignment f => "cannot assign to field ".toList ++ f.quoted
  | .deletion f => "cannot delete field ".toList ++ f.quoted

namespace ScanResult

def fields (r : ScanResult) : List (Text × Atom) :=
  [("valid".toList, .bool r.valid), ("final_state".toList, .state r.finalState)]

def get (r : ScanResult) (field : Text) : Except FieldError Atom :=
  match r.fields.lookup field with
  | some a => .ok a
  | none => .error (.missing field)

def assign (_ : ScanResult) (field : Text) (_ : Value) : Except FieldError ScanResult :=
  .error (.assignment field)

def delete (_ : ScanResult) (field : Text) : Except FieldError ScanResult :=
  .error (.deletion field)

def display (r : ScanResult) : Text :=
  let pairs := r.fields.map fun (name, a) => name ++ ['='] ++ a.display
  "ScanResult(".toList ++ [',', ' '].intercalate pairs ++ [')']

/-- Whether the record has these fields. Values of the same key are the same here. -/
def hasFields (r : ScanResult) (valid finalState : Value) : Bool :=
  valid.key? = some (Atom.bool r.valid).key ∧
    finalState.key? = some (Atom.state r.finalState).key

end ScanResult
end SumExpr
