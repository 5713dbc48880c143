import Xref.Locator
import Xref.Query.Child
import Xref.Query.Kind
import Xref.Spawn

/-!
# The query tool

A request is run by starting the tool in the directory of the database. The symbol is an argument
of its own, whatever characters it has.
-/

namespace Xref.Query

structure Request where
  kind : Kind
  symbol : String
  directory : String
  deriving DecidableEq, Repr

structure Tool where
  program : String := "cscope"
  databaseFile : String := "cscope.out"
  /-- Bytes read at a time; none count as one. -/
  chunkSize : Nat := 1024
  deriving DecidableEq, Repr

namespace Tool

def arguments (tool : Tool) (request : Request) : List String :=
  ["-p8", "-d", "-f", Path.join request.directory tool.databaseFile,
    "-L" ++ toString request.kind.code, request.symbol]

def launch (tool : Tool) (w : World) (request : Request) : Except SystemError Launch :=
  w.spawn tool.program (tool.arguments request) request.directory

def execute (tool : Tool) (w : World) (request : Request) : Except Error Bytes :=
  match tool.launch w request with
  | .error cause => .error (.spawnFailed tool.program cause)
  | .ok _ => w.program.outcome tool.program tool.chunkSize

/-- Whether a request ends the whole program: the tool runs, and the buffer for its output cannot
be had. -/
def breaksOff (tool : Tool) (w : World) (request : Request) : Bool :=
  outgrows tool.chunkSize w.program.output && (tool.launch w request).toOption.isSome

end Tool
end Xref.Query
