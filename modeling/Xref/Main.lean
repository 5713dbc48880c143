import Xref.CommandLine

/-!
# The program

The outer layer: it looks at the disk, calls the command, and writes what the command leaves
behind. It looks at the directories above the working directory and at what the words of the
arguments and of the input name. It starts no program, so a query fails as it does where the tool
is not installed.
-/

namespace Xref.Main

partial def readAll (stream : IO.FS.Stream) (read : ByteArray) : IO ByteArray := do
  let chunk ← stream.read 65536
  if chunk.isEmpty then return read else readAll stream (read ++ chunk)

/-- What is already known of a path stays. -/
def note (w : World) (path : String) (entry : Entry) : World :=
  match w.stat path, entry with
  | .ok _, _ => w
  | .error _, .directory => w.makeDirectories path
  | .error _, entry => (w.makeParents path).place .entry path entry

def readInto (w : World) (path : String) : IO World := do
  let here := (← IO.currentDir) / path
  if (← here.pathExists) && !(← here.isDir) then
    return note w here.toString (.file (← IO.FS.readBinFile here).toList false)
  else return w

def listInto (w : World) (path : String) : IO World := do
  let here := (← IO.currentDir) / path
  if ← here.isDir then
    (← here.readDir).foldlM
      (fun w entry => do
        let isDirectory ← entry.path.isDir
        return note w entry.path.toString (if isDirectory then .directory else .file [] false))
      (note w here.toString .directory)
  else return w

def words (text : String) : List String :=
  ((text.splitToList fun c => Text.isBlank c || c = '=').map Text.trim).filter (!·.isEmpty)

def snapshot (args : List String) (input : Bytes) : IO World := do
  let directory := (← IO.currentDir).toString
  let home := (← IO.getEnv "HOME").getD ""
  let unseen : World :=
    ⟨FileSystem.empty, Place.root, home, [], ⟨[], [], .ok (.exited 0)⟩⟩
  let named := (args.flatMap words ++ words (Text.Utf8.lossy input)).map
    (Navigator.expandHome home)
  let above := (Path.Absolute.lineage ⟨false, (Path.names directory).reverse, false⟩).map (·.text)
  let w ← (Config.fileName :: named).foldlM readInto unseen
  let w ← (above ++ named).foldlM listInto w
  return w.changeDirectory directory

def run (args : List String) : IO UInt32 := do
  let input := (← readAll (← IO.getStdin) ByteArray.empty).toList
  let w ← snapshot args input
  let outcome := CommandLine.run w args input
  if !w.isFile Config.fileName then
    if let .ok content := outcome.world.readBytes Config.fileName then
      IO.FS.writeBinFile Config.fileName ⟨content.toArray⟩
  IO.print outcome.output
  if let some report := outcome.report then
    IO.eprintln report.text
  return UInt32.ofNat outcome.exitCode

end Xref.Main

def main (args : List String) : IO UInt32 := Xref.Main.run args
