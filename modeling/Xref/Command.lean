import Xref.Numeral
import Xref.Query.Kind
import Xref.Text.Blank

/-!
# Commands

A command line is a name and an argument that runs to the end of the line. White space around
either does not count.
-/

namespace Xref

inductive Command where
  /-- Without a symbol, the word at the cursor is looked up. -/
  | find (kind : Query.Kind) (symbol : Option String)
  /-- Counted from zero; the line counts from one. -/
  | select (index : Nat)
  | popMark
  | setDirectory (path : String)
  deriving DecidableEq, Repr

/-- A line that is no command, without the white space around it. -/
structure UnknownCommand where
  line : String
  deriving DecidableEq, Repr

def UnknownCommand.message (e : UnknownCommand) : String := "unknown command: " ++ e.line

namespace Command

def split (line : String) : String × Option String :=
  match Text.splitBlank line with
  | (name, none) => (name, none)
  | (name, some rest) =>
    let argument := Text.trim rest
    (name, if argument.isEmpty then none else some argument)

/-- Positions on the line count from one. -/
def position? (argument : String) : Option Nat :=
  match Numeral.word? argument with
  | some (n + 1) => some n
  | _ => none

def ofName? (name : String) (argument : Option String) : Option Command :=
  match Query.Kind.ofName? name with
  | some kind => some (.find kind argument)
  | none =>
    if name = "pop-navigation-mark" then some .popMark
    else if name = "set-database-directory" then argument.map .setDirectory
    else if name = "select" then (argument.bind position?).map .select
    else none

def parse (line : String) : Except UnknownCommand Command :=
  let line := Text.trim line
  let (name, argument) := split line
  match ofName? name argument with
  | some command => .ok command
  | none => .error ⟨line⟩

end Command
end Xref
