import SumExpr.Text.Lines
import SumExpr.Text.Utf8

/-! Standard input: text that is taken as it is, bytes that have to be decoded, or a source that
gives some lines and then fails. A failure leaves no lines (`lines_of_failure`). -/

namespace SumExpr

inductive ReadFailure
  | device (message : Text)
  | brokenPipe (message : Text)
  | undecodable (fault : Text.Utf8.Fault)
  | badValue (message : Text)
  | runtime (message : Text)
  deriving DecidableEq

namespace ReadFailure

def message : ReadFailure → Text
  | .device m | .brokenPipe m | .badValue m | .runtime m => m
  | .undecodable fault => fault.message

/-- Whether the program reports such a failure; any other one ends it. -/
def expected : ReadFailure → Bool
  | .device _ | .brokenPipe _ | .undecodable _ => true
  | .badValue _ | .runtime _ => false

end ReadFailure

inductive Input
  | text (t : Text)
  | bytes (data : List UInt8)
  | failing (given : List Text) (failure : ReadFailure)

namespace Input

/-- What the source gives when it is asked for one line after another. In bytes every usual end of
line counts as a line feed. -/
def reads : Input → List (Except ReadFailure Text)
  | .text t => t.splitLines.map .ok
  | .bytes data =>
    match Text.Utf8.decode data with
    | .error fault => [.error (.undecodable fault)]
    | .ok t => t.unifyNewlines.splitLines.map .ok
  | .failing given failure => given.map .ok ++ [.error failure]

/-- Keeps each line without its terminator, until one cannot be read. -/
def keepLines : List (Except ReadFailure Text) → Except ReadFailure (List Text)
  | [] => .ok []
  | .error failure :: _ => .error failure
  | .ok line :: rest => (keepLines rest).map (line.stripTerminator :: ·)

def lines (input : Input) : Except ReadFailure (List Text) := keepLines input.reads

/-- Lines that were read are kept only if all behind them can be read too. -/
theorem keepLines_append (read : List Text) (rest : List (Except ReadFailure Text)) :
    keepLines (read.map .ok ++ rest) =
      (keepLines rest).map (read.map Text.stripTerminator ++ ·) := by
  induction read with
  | nil => cases h : keepLines rest <;> simp [h, Except.map]
  | cons line read ih =>
    rw [List.map_cons, List.cons_append, keepLines, ih]
    cases keepLines rest <;> rfl

theorem keepLines_ok (read : List Text) :
    keepLines (read.map .ok) = .ok (read.map Text.stripTerminator) := by
  have happend := keepLines_append read []
  rw [List.append_nil] at happend
  rw [happend, keepLines, Except.map, List.append_nil]

theorem lines_text (t : Text) : (Input.text t).lines = .ok t.lines := keepLines_ok t.splitLines

theorem lines_bytes_of_ok {data : List UInt8} {t : Text} (h : Text.Utf8.decode data = .ok t) :
    (Input.bytes data).lines = .ok t.unifyNewlines.lines := by
  rw [lines, reads, h]
  exact keepLines_ok t.unifyNewlines.splitLines

theorem lines_of_failure {input : Input} {read : List Text} {failure : ReadFailure}
    {rest : List (Except ReadFailure Text)}
    (h : input.reads = read.map .ok ++ .error failure :: rest) : input.lines = .error failure := by
  rw [lines, h]
  exact keepLines_append read (.error failure :: rest)

theorem lines_bytes_of_error {data : List UInt8} {fault : Text.Utf8.Fault}
    (h : Text.Utf8.decode data = .error fault) :
    (Input.bytes data).lines = .error (.undecodable fault) := by
  rw [lines, reads, h]
  rfl

end Input
end SumExpr
