import SumExpr.Numeral
import SumExpr.State
import SumExpr.Text.Quoted

/-! What tables have as keys. Atoms of different make may stand for the same key: a state or a
symbol stands for its name, and a truth value for zero or one. -/

namespace SumExpr

inductive Atom
  | state (s : State)
  | symbol (y : Symbol)
  | text (t : Text)
  | int (n : Int)
  | bool (b : Bool)
  | null
  deriving DecidableEq

inductive Key
  | text (t : Text)
  | int (n : Int)
  | null
  deriving DecidableEq

namespace Atom

def key : Atom → Key
  | .state s => .text s.name
  | .symbol y => .text y.name
  | .text t => .text t
  | .int n => .int n
  | .bool b => .int (if b then 1 else 0)
  | .null => .null

/-- An atom as it stands in messages. A number with too many digits cannot stand there. -/
def display? : Atom → Option Text
  | .state s => some s.display
  | .symbol y => some y.display
  | .text t => some t.quoted
  | .int n => Numeral.show? n
  | .bool true => some "True".toList
  | .bool false => some "False".toList
  | .null => some "None".toList

/-- If an atom cannot be displayed, what stands for it is why. -/
def display (a : Atom) : Text := a.display?.getD Numeral.refusal

end Atom

def State.ofKey? (k : Key) : Option State := State.all.find? fun s => (Atom.state s).key = k

def Symbol.ofKey? (k : Key) : Option Symbol := Symbol.all.find? fun y => (Atom.symbol y).key = k

theorem State.ofKey?_key (s : State) : State.ofKey? (Atom.state s).key = some s := by
  cases s <;> decide

theorem Symbol.ofKey?_key (y : Symbol) : Symbol.ofKey? (Atom.symbol y).key = some y := by
  cases y <;> decide

end SumExpr
