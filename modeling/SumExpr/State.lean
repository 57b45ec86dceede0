import SumExpr.Symbol

/-! The four states of the scanner and the successor of a state on a symbol. Every pair of a state
and a symbol has a successor; `next_of_absorbing` says that an absorbing state is never left. -/

namespace SumExpr

inductive State
  | start | digit | operator | error
  deriving DecidableEq

namespace State

def all : List State := [.start, .digit, .operator, .error]

def name : State → Text
  | .start => "START".toList
  | .digit => "ACCEPT_DIGIT".toList
  | .operator => "ACCEPT_AFTER_OPERATOR".toList
  | .error => "ERROR".toList

def display (s : State) : Text :=
  "<FsmState.".toList ++ s.name ++ ": '".toList ++ s.name ++ "'>".toList

def ordinal : State → Nat
  | .start => 0
  | .digit => 1
  | .operator => 2
  | .error => 3

def initial : State := .start

/-- A text that rests here is a valid expression. A dangling operator counts as valid. -/
def accepting : State → Bool
  | .digit | .operator => true
  | .start | .error => false

def absorbing : State → Bool
  | .error => true
  | _ => false

/-- An operand starts with a digit and goes on over digits; an operator needs an operand before it;
a mistake is never forgiven. -/
def next : State → Symbol → State
  | .start, .digit => .digit
  | .start, _ => .error
  | .digit, .digit => .digit
  | .digit, .plus => .operator
  | .digit, .minus => .operator
  | .digit, .other => .error
  | .operator, .digit => .digit
  | .operator, _ => .error
  | .error, _ => .error

theorem mem_all (s : State) : s ∈ all := by cases s <;> decide

theorem next_of_absorbing {s : State} (h : s.absorbing = true) (y : Symbol) : s.next y = s := by
  cases s <;> simp_all [absorbing, next]

end State

end SumExpr
