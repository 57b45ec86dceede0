import SumExpr.Value

/-! States and symbols by value: a value that has the key of one is taken for it. -/

namespace SumExpr

/-- The two closed sets. -/
inductive Kind
  | state | symbol
  deriving DecidableEq

def Kind.name : Kind → Text
  | .state => "FsmState".toList
  | .symbol => "Symbol".toList

/-- The value is no member of the set. -/
structure NotMember where
  value : Value
  kind : Kind

def NotMember.message (e : NotMember) : Text :=
  match e.value.display? with
  | some shown => shown ++ " is not a valid ".toList ++ e.kind.name
  | none => Numeral.refusal

def State.ofValue (v : Value) : Except NotMember State :=
  match v.key?.bind State.ofKey? with
  | some s => .ok s
  | none => .error ⟨v, .state⟩

def Symbol.ofValue (v : Value) : Except NotMember Symbol :=
  match v.key?.bind Symbol.ofKey? with
  | some y => .ok y
  | none => .error ⟨v, .symbol⟩

end SumExpr
