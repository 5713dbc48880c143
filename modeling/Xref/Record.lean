import Xref.Text.Column

/-!
# Match records

One match of a query: where it is, and the line it stands on.
-/

namespace Xref

structure Record where
  /-- Relative to the directory of the database, or absolute. -/
  file : String
  scope : String
  line : UInt32
  context : String
  deriving DecidableEq, Repr

/-- The record as a row of a list: columns for file and scope, the line in brackets between. -/
def Record.row (r : Record) : String :=
  Text.alignLeft 32 r.file ++ " [" ++ toString r.line ++ "] " ++ Text.alignLeft 24 r.scope ++ " " ++
    r.context

end Xref
