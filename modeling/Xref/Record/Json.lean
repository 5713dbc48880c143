import Xref.Json.Reader
import Xref.Json.Writer
import Xref.Query.Kind
import Xref.Record

/-!
# Records and kinds in JSON

A record is an object with four members, all required. A kind is the name of its command, or an
object with that one name and null.
-/

namespace Xref

def Record.fieldNames : List String := ["file", "scope", "line", "context"]

def Record.members (r : Record) : Json.Members :=
  [("file", .text r.file), ("scope", .text r.scope), ("line", .natural r.line.toNat),
    ("context", .text r.context)]

def Record.ofJson? (json : Json) : Option Record := do
  match ← json.fields? fieldNames with
  | [some file, some scope, some line, some context] =>
    return {
      file := ← file.text?
      scope := ← scope.text?
      line := UInt32.ofNat (← line.natural? UInt32.size)
      context := ← context.text? }
  | _ => none

def Record.parse? (text : String) : Option Record := (Json.parse? text).bind ofJson?

def Record.parseBytes? (bytes : Bytes) : Option Record := (Json.parseBytes? bytes).bind ofJson?

def Query.Kind.ofJson? : Json → Option Query.Kind
  | .string (some name) => ofName? name
  | .object [(some name, .null)] => ofName? name
  | _ => none

def Query.Kind.parse? (text : String) : Option Query.Kind := (Json.parse? text).bind ofJson?

end Xref
