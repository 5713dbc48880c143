import Xref.Json.Reader
import Xref.Json.Writer
import Xref.Locator

/-!
# Configuration

Settings come from a JSON file. A member that it lacks keeps its default.
-/

namespace Xref

structure Config where
  program : String := "cscope"
  databaseFile : String := "cscope.out"
  /-- Used instead of the upward search. -/
  databaseDirectory : Option String := none
  chunkSize : UInt64 := 1024
  stackCapacity : UInt64 := 1024
  deriving DecidableEq, Repr

inductive ConfigError where
  | unreadable (path : String) (cause : SystemError)
  | invalid (path : String)
  | alreadyExists (path : String)
  | notWritten (cause : SystemError)
  | notRenamed (cause : SystemError)
  deriving DecidableEq, Repr

namespace ConfigError

def message : ConfigError → String
  | .unreadable path _ => "failed to read " ++ path
  | .invalid path => "failed to parse " ++ path ++ " - invalid JSON"
  | .alreadyExists path =>
    path ++ " already exists\n\nTo regenerate it, remove the existing file first."
  | .notWritten _ => "failed to write temporary config file"
  | .notRenamed _ => "failed to rename temporary config file"

def causes : ConfigError → List String
  | .unreadable _ cause | .notWritten cause | .notRenamed cause => [cause.message]
  | .invalid _ | .alreadyExists _ => []

end ConfigError

namespace Config

def fileName : String := ".cscope-nav.json"
def temporaryName : String := ".cscope-nav.tmp"

def locator (c : Config) : Locator := ⟨c.databaseFile⟩

-- ---------------------------------------------------------------------------
-- JSON
-- ---------------------------------------------------------------------------

def fieldNames : List String :=
  ["program", "databaseFile", "databaseDir", "chunkSize", "stackCapacity"]

/-- A directory that is not set is left out. -/
def members (c : Config) : Json.Members :=
  [("program", .text c.program), ("databaseFile", .text c.databaseFile)] ++
    c.databaseDirectory.toList.map (fun path => ("databaseDir", .text path)) ++
    [("chunkSize", .natural c.chunkSize.toNat), ("stackCapacity", .natural c.stackCapacity.toNat)]

def setting (read : Json → Option α) (default : α) : Option Json → Option α
  | some json => read json
  | none => some default

def readWord (json : Json) : Option UInt64 := (json.natural? UInt64.size).map UInt64.ofNat

/-- Null stands for no path. -/
def readPath : Json → Option (Option String)
  | .null => some none
  | json => json.text?.map some

def ofJson? (json : Json) : Option Config := do
  let default : Config := {}
  match ← json.fields? fieldNames with
  | [program, databaseFile, databaseDirectory, chunkSize, stackCapacity] =>
    return {
      program := ← setting Json.text? default.program program
      databaseFile := ← setting Json.text? default.databaseFile databaseFile
      databaseDirectory := ← setting readPath default.databaseDirectory databaseDirectory
      chunkSize := ← setting readWord default.chunkSize chunkSize
      stackCapacity := ← setting readWord default.stackCapacity stackCapacity }
  | _ => none

def parse? (text : String) : Option Config := (Json.parse? text).bind ofJson?

-- ---------------------------------------------------------------------------
-- Files
-- ---------------------------------------------------------------------------

def read (w : World) (path : String) : Except ConfigError Config :=
  match w.readText path with
  | .error cause => .error (.unreadable path cause)
  | .ok text =>
    match parse? text with
    | some config => .ok config
    | none => .error (.invalid path)

def load (w : World) (path : Option String) : Except ConfigError Config :=
  match path with
  | some path => read w path
  | none => if w.isFile fileName then read w fileName else .ok {}

/-- Writes the defaults to a new file, under a temporary name first. Gives the path of the file,
and the world after it, also where a later step fails. -/
def create (w : World) (directory : String) : Except ConfigError String × World :=
  let path := Path.join directory fileName
  let temporary := Path.join directory temporaryName
  match w.stat path with
  | .ok _ => (.error (.alreadyExists path), w)
  | .error _ =>
    match w.writeFile temporary (Text.Utf8.encode (Json.pretty "" ({} : Config).members)) with
    | .error stopped => (.error (.notWritten stopped.cause), stopped.world)
    | .ok written =>
      match written.rename temporary path with
      | .error cause => (.error (.notRenamed cause), written)
      | .ok renamed => (.ok path, renamed)

end Config
end Xref
