import Xref.World

/-!
# Starting a program

A program is started in a directory, which is entered first. A name without a separator is looked
up in the search path; any other is a path from that directory.
-/

namespace Xref

structure Launch where
  arguments : List String
  directory : String
  deriving DecidableEq, Repr

namespace World

/-- The size that one argument may have, with the byte that ends it. -/
def maxArgumentSize : Nat := 131072

def enterable (w : World) (directory : String) : Except SystemError Place :=
  match w.lookup directory with
  | .error e => .error e
  | .ok (p, .directory) => .ok p
  | .ok (_, _) => .error .notDirectory

def runnable (w : World) (path : String) : Except SystemError Unit :=
  match w.lookup path with
  | .error e => .error e
  | .ok (_, .file _ true) => .ok ()
  | .ok (_, _) => .error .permissionDenied

/-- Directories without the program are passed over. One where it may not be run is remembered, and
decides when no other has it. -/
def search (w : World) (program : String) (reason : SystemError) :
    List String → Except SystemError Unit
  | [] => .error reason
  | directory :: rest =>
    match w.runnable (Path.join directory program) with
    | .ok () => .ok ()
    | .error e =>
      if e = .permissionDenied then w.search program e rest
      else if e = .notFound ∨ e = .notDirectory then
        w.search program (if reason = .permissionDenied then reason else e) rest
      else .error e

/-- Of a long name only as much is looked up as shows that no directory takes it. -/
def findProgram (w : World) (program : String) : Except SystemError Unit :=
  if program.isEmpty then .error .notFound
  else if program.toList.contains '/' then w.runnable program
  else
    w.search (String.ofList (program.toList.take (FileSystem.maxNameSize + 1))) .notFound
      w.searchPath

def spawn (w : World) (program : String) (arguments : List String) (directory : String) :
    Except SystemError Launch := do
  if (program :: directory :: arguments).any (·.toList.contains '\x00') then
    throw .nulInArgument
  let place ← w.enterable directory
  ({ w with workingDirectory := place }).findProgram program
  if (program :: arguments).any (·.utf8ByteSize ≥ maxArgumentSize) then
    throw .argumentsTooLong
  return ⟨arguments, place.location.text⟩

end World
end Xref
