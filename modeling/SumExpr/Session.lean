import SumExpr.Arguments.Help
import SumExpr.Input
import SumExpr.Matrix
import SumExpr.Report

/-! Runs of the program. A run reads its arguments, chooses the expressions, and reports on them.
The log is kept from some level on, which the first run of a session with arguments in order sets
for all of them. Nothing else is left behind by a run. -/

namespace SumExpr

inductive Failure
  | input (f : ReadFailure)
  /-- There is an expression, but no limit to compare its length with. -/
  | noLimit
  deriving DecidableEq

def Failure.message : Failure → Text
  | .input f => f.message
  | .noLimit => "'>' not supported between instances of 'int' and 'list'".toList

inductive Ending
  | returned (exit : Exit)
  | help
  | usage (e : Arguments.UsageError)
  | escaped (failure : Failure)
  deriving DecidableEq

def Ending.code : Ending → Nat
  | .returned exit => exit.code
  | .help => 0
  | .usage _ => 2
  | .escaped _ => 1

structure Run where
  ending : Ending
  printed : Text
  events : List Log.Event
  deriving DecidableEq

namespace Run

def ofStop : Arguments.Stop → Run
  | .help => ⟨.help, Arguments.help, []⟩
  | .usage e => ⟨.usage e, [], []⟩

def recorded (threshold : Log.Level) (r : Run) : Run :=
  { r with events := r.events.filter (·.reaches threshold) }

/-- What a run writes to standard error: the log, or its answer to a mistake in its arguments. -/
def errorOutput (line : Log.Event → Text) (r : Run) : Text :=
  match r.ending with
  | .usage e => e.report
  | _ => .ofLines (r.events.map line)

end Run

namespace Session

def samples : List Text := ["3+2-1".toList, "3++2".toList]

/-- Lines of the input if they are asked for, else the expressions given, else the samples. -/
def chosen (inv : Arguments.Invocation) (input : Input) : Except ReadFailure (List Text) :=
  if inv.settings.stdin then input.lines
  else .ok (if inv.expressions = [] then samples else inv.expressions)

/-- What is reported on the chosen expressions. Without a limit the first of them ends the run. -/
def reportOn (limit : Limit.Setting) (exprs : List Text) : Run :=
  match limit, exprs with
  | .empty, _ :: _ => ⟨.escaped .noLimit, [], []⟩
  | .empty, [] => ⟨.returned .ok, [], []⟩
  | .atMost n, exprs =>
    let r := report n exprs
    ⟨.returned r.exit, r.printed, r.events⟩

/-- The matrix is printed before the input is read. -/
def execute (inv : Arguments.Invocation) (input : Input) : Run :=
  let table := if inv.settings.table then Matrix.printed else []
  match chosen inv input with
  | .error failure =>
    if failure.expected then
      ⟨.returned .unreadable, table, [.unreadable failure.message]⟩
    else ⟨.escaped (.input failure), table, []⟩
  | .ok exprs =>
    let r := reportOn inv.settings.maxLength exprs
    ⟨r.ending, table ++ r.printed, .checking exprs.length :: r.events⟩

def level (settings : Arguments.Settings) : Log.Level :=
  if settings.verbose then .debug else .info

/-- A run, and the level of the log that is set after it. -/
def call (set : Option Log.Level) (argv : List Text) (input : Input) : Run × Option Log.Level :=
  match Arguments.parse argv with
  | .error stop => (.ofStop stop, set)
  | .ok inv =>
    let threshold := set.getD (level inv.settings)
    ((execute inv input).recorded threshold, some threshold)

def calls (set : Option Log.Level) : List (List Text × Input) → List Run
  | [] => []
  | (argv, input) :: rest =>
    let r := call set argv input
    r.1 :: calls r.2 rest

def single (argv : List Text) (input : Input) : Run := (call none argv input).1

end Session
end SumExpr
