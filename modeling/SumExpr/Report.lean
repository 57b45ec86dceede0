import SumExpr.Limit
import SumExpr.Log

/-! The report on a list of expressions: a line for each, until one is too long. Limits so far below
zero that they have too many digits to be shown are left out. -/

namespace SumExpr

inductive Exit
  | ok | unreadable | tooLong
  deriving DecidableEq

def Exit.code : Exit → Nat
  | .ok => 0
  | .unreadable => 1
  | .tooLong => 2

def tooLong? (limit : Int) (expr : Text) : Option TooLong :=
  if limit < expr.length then some ⟨expr.length, limit⟩ else none

def resultLine (expr : Text) (valid : Bool) : Text :=
  "Is \"".toList ++ expr ++ "\" a valid expression? ".toList ++
    (if valid then "Yes" else "No").toList

structure Report where
  exit : Exit
  lines : List Text
  events : List Log.Event
  deriving DecidableEq

/-- Checks one expression after the other. The first one that is too long is refused, and nothing
behind it is looked at. -/
def report (limit : Int) : List Text → Report
  | [] => ⟨.ok, [], []⟩
  | expr :: rest =>
    match tooLong? limit expr with
    | some e => ⟨.tooLong, [], [.refused e]⟩
    | none =>
      let after := report limit rest
      ⟨after.exit, resultLine expr (isValid expr) :: after.lines, Log.ofScan expr :: after.events⟩

def Report.printed (r : Report) : Text := .ofLines r.lines

end SumExpr
