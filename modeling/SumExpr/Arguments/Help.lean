import SumExpr.Arguments.Parse

/-! What the program says about its own use. -/

namespace SumExpr.Arguments

def usage : Text := "usage: expr-fsm [options] [EXPR ...] [-- EXPR ...]".toList

def help : Text :=
  .ofLines
    [ usage,
      [],
      "Check digit/+/- expressions with a finite-state machine".toList,
      [],
      "options:".toList,
      "  -h, --help            show this help message and exit".toList,
      "  --stdin               Read one expression per line from standard input".toList,
      "  --table               Print the transition table before the results".toList,
      "  --max-length MAX_LENGTH".toList,
      "                        Maximum accepted input length (default: ".toList ++
        .ofNat Limit.standard ++ [')'],
      "  --verbose, -v         Debug logging".toList,
      [],
      "Exit codes:".toList,
      "  0  Success (including invalid expressions)".toList,
      "  1  Operational failure (unreadable input)".toList,
      "  2  Boundary violation (input too long) or usage error".toList,
      [],
      "Expressions may start with \"-\" (e.g. -1+2). Use \"--\" before expressions".toList,
      "that collide with an option such as -v or -h.".toList ]

/-- What is written about a mistake in the use of the program. -/
def UsageError.report (e : UsageError) : Text :=
  .ofLines [usage, "expr-fsm: error: ".toList ++ e.message]

end SumExpr.Arguments
