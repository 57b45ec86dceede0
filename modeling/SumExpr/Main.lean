import Std.Time.Format
import SumExpr.Session

/-! The command line. Standard input is read only where it is asked for. -/

namespace SumExpr.CommandLine

partial def readAll (stream : IO.FS.Stream) (data : ByteArray) : IO ByteArray := do
  let chunk ← stream.read 8192
  if chunk.isEmpty then return data else readAll stream (data ++ chunk)

def readInput : IO Input := do
  try return .bytes (← readAll (← IO.getStdin) .empty).toList
  catch e => return .failing [] (.device (toString e).toList)

def wantsInput (argv : List Text) : Bool :=
  match Arguments.parse argv with
  | .ok inv => inv.settings.stdin
  | .error _ => false

/-- The time in front of a record, to the millisecond. -/
def now : IO Text := do
  let time ← Std.Time.PlainDateTime.now
  return (time.format "uuuu-MM-dd HH:mm:ss,SSS").toList

end SumExpr.CommandLine

open SumExpr in
def main (args : List String) : IO UInt32 := do
  let argv := args.map String.toList
  let input ← if CommandLine.wantsInput argv then CommandLine.readInput else pure (.text [])
  let r := Session.single argv input
  IO.print (String.ofList r.printed)
  let time ← CommandLine.now
  IO.eprint (String.ofList (r.errorOutput (Log.line time Log.commandLine)))
  if let .escaped failure := r.ending then IO.eprintln (String.ofList failure.message)
  return .ofNat r.ending.code
