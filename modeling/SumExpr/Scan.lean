import SumExpr.State

/-! One pass over a text. `run` stops at the first absorbing state, `trace` never stops; the two
agree because an absorbing state is never left (`run_eq_foldl`). -/

namespace SumExpr

structure ScanResult where
  valid : Bool
  finalState : State
  deriving DecidableEq

namespace Scan

/-- The state after reading characters from `s` on; nothing is read after an absorbing state. -/
def run (s : State) : Text → State
  | [] => s
  | c :: rest =>
    let t := s.next (.ofChar c)
    if t.absorbing then t else run t rest

/-- Every symbol with the state after it, to the end of the text. -/
def trace (s : State) : Text → List (Symbol × State)
  | [] => []
  | c :: rest =>
    let y := Symbol.ofChar c
    (y, s.next y) :: trace (s.next y) rest

theorem foldl_of_absorbing {s : State} (h : s.absorbing = true) (text : Text) :
    text.foldl (fun t c => t.next (.ofChar c)) s = s := by
  induction text with
  | nil => rfl
  | cons c rest ih => rw [List.foldl_cons, State.next_of_absorbing h, ih]

theorem run_eq_foldl (s : State) (text : Text) :
    run s text = text.foldl (fun t c => t.next (.ofChar c)) s := by
  induction text generalizing s with
  | nil => rfl
  | cons c rest ih =>
    rw [run, List.foldl_cons]
    split
    · next h => rw [foldl_of_absorbing h]
    · exact ih _

end Scan

def finalState (text : Text) : State := Scan.run .initial text

def scan (text : Text) : ScanResult := ⟨(finalState text).accepting, finalState text⟩

def isValid (text : Text) : Bool := (scan text).valid

end SumExpr
