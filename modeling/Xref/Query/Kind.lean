/-!
# Kinds of query

The ten queries of the cross-reference tool, each with the field code that selects it, the name of
its command and the words that prompt for its symbol.
-/

namespace Xref.Query

inductive Kind where
  | symbol
  | globalDefinition
  | callees
  | callers
  | text
  | changeText
  | egrepPattern
  | file
  | includers
  | assignments
  deriving DecidableEq, Repr

namespace Kind

/-- In the order of the field codes. -/
def all : List Kind :=
  [symbol, globalDefinition, callees, callers, text, changeText, egrepPattern, file, includers,
    assignments]

def code : Kind → Nat
  | symbol => 0
  | globalDefinition => 1
  | callees => 2
  | callers => 3
  | text => 4
  | changeText => 5
  | egrepPattern => 6
  | file => 7
  | includers => 8
  | assignments => 9

def ofCode? (code : Nat) : Option Kind := all.find? (·.code = code)

def name : Kind → String
  | symbol => "find-symbol"
  | globalDefinition => "find-global-definition"
  | callees => "find-callees"
  | callers => "find-callers"
  | text => "find-text"
  | changeText => "change-text"
  | egrepPattern => "find-egrep-pattern"
  | file => "find-file"
  | includers => "find-includers"
  | assignments => "find-assignments"

def ofName? (name : String) : Option Kind := all.find? (·.name = name)

/-- The two kinds that are recognised but never run: the one edits files and the other takes a
pattern. -/
def supported : Kind → Bool
  | changeText | egrepPattern => false
  | _ => true

def description : Kind → String
  | symbol => "Find symbol"
  | globalDefinition => "Find global definition"
  | callees => "Find functions called by this function"
  | callers => "Find functions calling this function"
  | text => "Find text string"
  | changeText => "Change text string"
  | egrepPattern => "Find egrep pattern"
  | file => "Find file"
  | includers => "Find #including file"
  | assignments => "Find assignments to symbol"

/-- An empty default is not shown. -/
def prompt (kind : Kind) (default : Option String) : String :=
  match default with
  | some word =>
    if word.isEmpty then kind.description ++ ": "
    else kind.description ++ " [default " ++ word ++ "]: "
  | none => kind.description ++ ": "

theorem mem_all (kind : Kind) : kind ∈ all := by cases kind <;> decide

theorem ofCode?_code (kind : Kind) : ofCode? kind.code = some kind := by cases kind <;> rfl

theorem ofName?_name (kind : Kind) : ofName? kind.name = some kind := by
  cases kind <;> decide

end Kind
end Xref.Query
