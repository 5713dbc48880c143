import Xref.World

/-!
# The database of a directory

The database is a regular file of a given name. It is searched for upward, from a directory to the
root of the file system, along the text of the path.
-/

namespace Xref

structure Locator where
  fileName : String := "cscope.out"
  deriving DecidableEq, Repr

namespace Locator

def path (locator : Locator) (directory : String) : String := Path.join directory locator.fileName

def present (locator : Locator) (w : World) (directory : String) : Bool :=
  w.isFile (locator.path directory)

/-- Whether the directory of a path holds the database. A path of more names than there is room for
has none, and its text is not made. -/
def presentIn (locator : Locator) (w : World) (directory : Path.Absolute) : Bool :=
  if Path.isAbsolute locator.fileName then w.isFile locator.fileName
  else
    (directory.names.drop FileSystem.maxPathSize).isEmpty && locator.present w directory.text

theorem presentIn_eq (locator : Locator) (w : World) (directory : Path.Absolute) :
    locator.presentIn w directory = locator.present w directory.text := by
  unfold presentIn
  split
  · next h => simp [present, path, Path.join, h]
  · next h =>
    by_cases hd : directory.names.length ≤ FileSystem.maxPathSize
    · simp [List.drop_eq_nil_of_le hd]
    · have hs := directory.length_le_size_text
      have hj := Path.size_le_size_join h directory.text
      rw [present, path, World.isFile_eq_false_of_size (by omega)]
      simp

def locate? (locator : Locator) (w : World) (start : String) : Option String :=
  (Path.absolute? w.workingPath.toOption start).bind fun path =>
    (path.nearest? (locator.presentIn w)).map Path.Absolute.text

theorem locate?_eq (locator : Locator) (w : World) (start : String) :
    locator.locate? w start =
      (Path.absolute? w.workingPath.toOption start).bind fun path =>
        (path.lineage.map Path.Absolute.text).find? (locator.present w) := by
  have h : locator.presentIn w = locator.present w ∘ Path.Absolute.text :=
    funext (locator.presentIn_eq w)
  simp only [locate?, Path.Absolute.nearest?_eq_find?, List.find?_map, h]

end Locator
end Xref
