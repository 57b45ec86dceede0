import SumExpr.Scan

/-! What the program records while it works. An event says what happened; its level, its message and
the logger that it goes through follow from it. -/

namespace SumExpr

structure TooLong where
  length : Nat
  limit : Int
  deriving DecidableEq

def TooLong.message (e : TooLong) : Text :=
  "Input of ".toList ++ .ofNat e.length ++ " characters exceeds maximum of ".toList ++
    .ofInt e.limit

namespace Log

inductive Level
  | debug | info | error
  deriving DecidableEq

namespace Level

def name : Level → Text
  | .debug => "DEBUG".toList
  | .info => "INFO".toList
  | .error => "ERROR".toList

def rank : Level → Nat
  | .debug => 0
  | .info => 1
  | .error => 2

end Level

inductive Event
  | scanned (length : Nat) (result : ScanResult)
  | checking (count : Nat)
  | refused (e : TooLong)
  | unreadable (failure : Text)
  deriving DecidableEq

namespace Event

def level : Event → Level
  | .scanned .. | .checking _ => .debug
  | .refused _ | .unreadable _ => .error

def reaches (threshold : Level) (e : Event) : Bool := threshold.rank ≤ e.level.rank

def message : Event → Text
  | .scanned length result =>
    "scan: length=".toList ++ .ofNat length ++ " final_state=".toList ++ result.finalState.name ++
      " valid=".toList ++ (if result.valid then "True" else "False").toList
  | .checking count => "Checking ".toList ++ .ofNat count ++ " expression(s)".toList
  | .refused e => e.message
  | .unreadable failure => "Failed to read standard input: ".toList ++ failure

/-- Scans have a logger of their own; all else goes through that of the command line. -/
def logger (commandLine : Text) : Event → Text
  | .scanned .. => "expr_fsm.scanner".toList
  | _ => commandLine

end Event

def commandLine : Text := "expr_fsm.cli".toList

def mainProgram : Text := "__main__".toList

def bareLine (commandLine : Text) (e : Event) : Text :=
  e.level.name ++ [' '] ++ e.logger commandLine ++ ": ".toList ++ e.message

def line (time commandLine : Text) (e : Event) : Text :=
  time ++ " [".toList ++ e.level.name ++ "] ".toList ++ e.logger commandLine ++ ": ".toList ++
    e.message

/-- The event that a scan records: it has the whole length, wherever the scan stopped. -/
def ofScan (text : Text) : Event := .scanned text.length (scan text)

end Log
end SumExpr
