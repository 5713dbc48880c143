import Xref.Text.Column

/-!
# Error reports

A failure that ends the program is reported with its causes, the nearest first. They are numbered
where there are several, and every line of a cause is indented.
-/

namespace Xref.CommandLine

structure Report where
  message : String
  causes : List String := []
  deriving DecidableEq, Repr

namespace Report

/-- The text with `first` before its first line and `others` before each other line. -/
def indent (first others text : String) : String :=
  first ++
    String.ofList (text.toList.flatMap fun c => if c = '\n' then '\n' :: others.toList else [c])

def numbered (causes : List String) : List String :=
  causes.zipIdx.map fun (cause, i) =>
    indent (Text.alignRight 5 (toString i) ++ ": ") (Text.blanks 7) cause

def text (r : Report) : String :=
  "Error: " ++ r.message ++
    match r.causes with
    | [] => ""
    | [cause] => "\n\nCaused by:\n" ++ indent (Text.blanks 4) (Text.blanks 4) cause
    | causes => "\n\nCaused by:\n" ++ "\n".intercalate (numbered causes)

end Report
end Xref.CommandLine
