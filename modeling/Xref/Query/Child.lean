import Xref.Query.Error
import Xref.Query.Stream
import Xref.Text.Blank

/-!
# The running query program

A program that was started is what its two streams give and how waiting for it ends.
-/

namespace Xref.Query

structure Child where
  output : List Piece
  diagnostics : List Piece
  wait : Except SystemError ExitStatus

/-- Output counts, however the program ended. Without any, a bad end is an error of its own, which
carries the diagnostics. -/
def Child.outcome (child : Child) (program : String) (chunk : Nat) : Except Error Bytes :=
  match (drain chunk child.output).result with
  | .error e => .error (.readFailed e)
  | .ok output =>
    if output ≠ [] then .ok output
    else
      match child.wait with
      | .ok status =>
        if status.success then .error .noOutput
        else
          .error (.failed program status (Text.trim (Text.Utf8.lossy (salvage child.diagnostics))))
      | .error _ => .error .noOutput

end Xref.Query
