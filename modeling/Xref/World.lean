import Xref.FileSystem
import Xref.Query.Child

/-!
# The surroundings of a session

A file system with a working directory, the home directory, the directories that are searched for
programs, and what a program does that is run. Reading reports the error that the system would;
writing gives the world after it, also where it stops halfway.
-/

namespace Xref

structure World where
  files : FileSystem
  workingDirectory : Place
  home : String
  searchPath : List String
  program : Query.Child

inductive FileType where
  | directory
  | regular
  deriving DecidableEq, Repr

namespace World

def resolve (w : World) (purpose : Purpose) (path : String) : Except SystemError Target :=
  w.files.resolve purpose w.workingDirectory path

/-- The working directory can be read as long as it is linked. -/
def workingPath (w : World) : Except SystemError String :=
  if w.workingDirectory.unlinked = 0 then .ok w.workingDirectory.location.text
  else .error .notFound

def lookup (w : World) (path : String) : Except SystemError (Place × Entry) :=
  match w.resolve .inspection path with
  | .error e => .error e
  | .ok (.vacant ..) => .error .notFound
  | .ok (.found p) =>
    match w.files.entryAt p with
    | some entry => .ok (p, entry)
    | none => .error .notFound

def stat (w : World) (path : String) : Except SystemError FileType :=
  match w.lookup path with
  | .error e => .error e
  | .ok (_, .directory) => .ok .directory
  | .ok (_, _) => .ok .regular

def isFile (w : World) (path : String) : Bool :=
  match w.stat path with
  | .ok .regular => true
  | _ => false

theorem isFile_eq_false_of_size {w : World} {path : String}
    (h : FileSystem.maxPathSize < path.utf8ByteSize) : w.isFile path = false := by
  have hr : ∃ e, w.resolve .inspection path = .error e := by
    simp only [resolve, FileSystem.resolve]
    repeat' split
    all_goals simp_all
  obtain ⟨e, he⟩ := hr
  simp [isFile, stat, lookup, he]

def readBytes (w : World) (path : String) : Except SystemError Bytes :=
  match w.lookup path with
  | .error e => .error e
  | .ok (_, .file content _) => .ok content
  | .ok (_, _) => .error .isDirectory

def readText (w : World) (path : String) : Except SystemError String :=
  match w.readBytes path with
  | .error e => .error e
  | .ok content => (Text.Utf8.decode content).mapError fun _ => .notUtf8

def setEntry (w : World) (location : Location) (entry : Option Entry) : World :=
  { w with files := w.files.put location entry }

-- ---------------------------------------------------------------------------
-- Changes
-- ---------------------------------------------------------------------------

structure OpenFile where
  location : Location
  runnable : Bool

def fileAt (w : World) : Target → Except SystemError OpenFile
  | .vacant directory name => .ok ⟨name :: directory, false⟩
  | .found p =>
    match w.files.entryAt p with
    | some (.file _ runnable) => .ok ⟨p.location, runnable⟩
    | _ => .error .isDirectory

def openFile (w : World) (path : String) : Except SystemError OpenFile := do
  let target ← w.resolve .creation path
  let file ← w.fileAt target
  match w.files.limits.opening file.location with
  | some e => .error e
  | none => .ok file

def OpenFile.fill (file : OpenFile) (w : World) (content : Bytes) : World :=
  { w with files := w.files.rewrite file.location (.file content file.runnable) }

structure Stopped where
  cause : SystemError
  world : World

/-- Creates a file or empties one, and fills it. What was written before an error stays. -/
def writeFile (w : World) (path : String) (content : Bytes) : Except Stopped World :=
  match w.openFile path with
  | .error cause => .error ⟨cause, w⟩
  | .ok file =>
    match (w.files.limits.writing file.location).filter (·.1 < content.length) with
    | some (room, cause) => .error ⟨cause, file.fill w (content.take room)⟩
    | none => .ok (file.fill w content)

def move (w : World) (source target : Location) : Except SystemError World :=
  match w.files.limits.moving source target with
  | some e => .error e
  | none => .ok { w with files := w.files.move source target }

/-- Moves the entry itself, also a link but not a directory, and replaces a file or a link that has
the new name. -/
def rename (w : World) (source target : String) : Except SystemError World := do
  let source ← w.resolve .entry source
  let target ← w.resolve .entry target
  match source, target with
  | .vacant .., _ => .error .notFound
  | .found p, .vacant directory name => w.move p.location (name :: directory)
  | .found p, .found q =>
    if w.files.isDirectory q then .error .isDirectory else w.move p.location q.location

/-- Creates a directory where nothing has the name, not even a link. -/
def makeDirectory (w : World) (p : Place) (name : String) : World :=
  match w.files.walk .entry FileSystem.maxLinks p [name] with
  | .ok (.vacant directory name) => w.setEntry (name :: directory) (some .directory)
  | _ => w

/-- Goes down by the names and creates the directories that are missing, as far as that works. -/
def makeDirectoriesBelow (w : World) (p : Place) : List String → World
  | [] => w
  | name :: rest =>
    let w := w.makeDirectory p name
    match w.files.walk .inspection FileSystem.maxLinks p [name] with
    | .ok (.found p) => w.makeDirectoriesBelow p rest
    | _ => w

/-- Creates the directories on the way to a path, and the last one. -/
def makeDirectories (w : World) (path : String) : World :=
  let start := if Path.isAbsolute path then Place.root else w.workingDirectory
  match w.resolve .inspection path with
  | .ok (.found _) => w
  | .ok (.vacant ..) => w.makeDirectoriesBelow start (Path.names path)
  | .error e => if e = .notFound then w.makeDirectoriesBelow start (Path.names path) else w

def makeParents (w : World) (path : String) : World :=
  w.makeDirectories
    ((if Path.isAbsolute path then "/" else "") ++ "/".intercalate (Path.names path).dropLast)

/-- Puts an entry where there is none, or in the place of one that is no directory. -/
def place (w : World) (purpose : Purpose) (path : String) (entry : Entry) : World :=
  match w.resolve purpose path with
  | .ok (.vacant directory name) => w.setEntry (name :: directory) (some entry)
  | .ok (.found p) => if w.files.isDirectory p then w else w.setEntry p.location (some entry)
  | .error _ => w

def makeLink (w : World) (path target : String) : World := w.place .entry path (.link target)

def install (w : World) (path : String) : World := w.place .creation path (.file [] true)

def remove (w : World) (path : String) : World :=
  match w.resolve .entry path with
  | .ok (.found ⟨location, 0⟩) =>
    { w with
      files := w.files.prune location
      workingDirectory := w.workingDirectory.unlink location }
  | _ => w

def changeDirectory (w : World) (path : String) : World :=
  match w.lookup path with
  | .ok (p, .directory) => { w with workingDirectory := p }
  | _ => w

end World
end Xref
