/-!
# Paths as text

Paths are joined and walked upward as text, without a look at the file system. Nothing here
removes a component "..".
-/

namespace Xref.Path

def separator : Char := '/'

def isAbsolute (path : String) : Bool := path.toList.head? = some separator

/-- An absolute path replaces the path it is joined to. -/
def join (base path : String) : String :=
  if isAbsolute path then path
  else if base.isEmpty || base.toList.getLast? = some separator then base ++ path
  else base ++ "/" ++ path

theorem size_le_size_join {path : String} (h : ¬isAbsolute path) (base : String) :
    base.utf8ByteSize ≤ (join base path).utf8ByteSize := by
  unfold join
  split
  · contradiction
  · split <;> simp only [String.utf8ByteSize_append] <;> omega

def splitChars (cs : List Char) : List (List Char) :=
  cs.foldr (fun c pieces =>
      if c = separator then [] :: pieces
      else
        match pieces with
        | [] => [[c]]
        | piece :: rest => (c :: piece) :: rest)
    [[]]

def pieces (path : String) : List String := (splitChars path.toList).map String.ofList

def names (path : String) : List String := (pieces path).filter fun p => !p.isEmpty && p ≠ "."

/-- An absolute path taken apart. Two separators in front are kept as two, and one at the end is
kept; the names stand with the last one first. -/
structure Absolute where
  twoSlashes : Bool := false
  names : List String
  trailing : Bool := false
  deriving DecidableEq, Repr

namespace Absolute

def text (path : Absolute) : String :=
  (if path.twoSlashes then "//" else "/") ++ "/".intercalate path.names.reverse ++
    (if path.trailing && !path.names.isEmpty then "/" else "")

/-- The names themselves, and what is left of them as they are dropped one by one. -/
def remainders : List String → List (List String)
  | [] => [[]]
  | name :: above => (name :: above) :: remainders above

/-- What is left of a path with its first names only. Without any, one separator is. -/
def upTo (path : Absolute) (names : List String) : Absolute :=
  ⟨path.twoSlashes && !names.isEmpty, names, false⟩

@[simp] theorem names_upTo (path : Absolute) (names : List String) :
    (path.upTo names).names = names := rfl

def lineage (path : Absolute) : List Absolute :=
  match path.names with
  | [] => [path]
  | _ :: above => path :: (remainders above).map path.upTo

def firstRemainder? (p : List String → Bool) : List String → Option (List String)
  | [] => if p [] then some [] else none
  | name :: above => if p (name :: above) then some (name :: above) else firstRemainder? p above

/-- The first path of the lineage for which a condition holds. The lineage is not made. -/
def nearest? (p : Absolute → Bool) (path : Absolute) : Option Absolute :=
  if p path then some path
  else
    match path.names with
    | [] => none
    | _ :: above =>
      (firstRemainder? (fun names => p (path.upTo names)) above).map path.upTo

theorem firstRemainder?_eq_find? (p : List String → Bool) (names : List String) :
    firstRemainder? p names = (remainders names).find? p := by
  induction names with
  | nil => cases h : p [] <;> simp [firstRemainder?, remainders, h]
  | cons name above ih => cases h : p (name :: above) <;> simp [firstRemainder?, remainders, h, ih]

theorem nearest?_eq_find? (p : Absolute → Bool) (path : Absolute) :
    path.nearest? p = path.lineage.find? p := by
  cases hn : path.names with
  | nil => cases h : p path <;> simp [nearest?, lineage, hn, h]
  | cons name above =>
    cases h : p path with
    | true => simp [nearest?, lineage, hn, h]
    | false =>
      simp only [nearest?, lineage, hn, h, firstRemainder?_eq_find?, List.find?_cons,
        List.find?_map, Bool.false_eq_true, if_false]
      rfl

theorem length_le_size_intercalate (names : List String) :
    names.length ≤ ("/".intercalate names).utf8ByteSize + 1 := by
  induction names with
  | nil => simp
  | cons name rest ih =>
    cases rest with
    | nil => simp
    | cons next rest =>
      have hs : "/".utf8ByteSize = 1 := by decide
      simp only [List.length_cons, String.intercalate_cons_cons, String.utf8ByteSize_append] at ih ⊢
      omega

/-- A byte for each name: the separator before it. -/
theorem length_le_size_text (path : Absolute) : path.names.length ≤ path.text.utf8ByteSize := by
  have h := length_le_size_intercalate path.names.reverse
  have hs : 1 ≤ (if path.twoSlashes then "//" else "/").utf8ByteSize := by
    split <;> decide
  simp only [List.length_reverse] at h
  simp only [text, String.utf8ByteSize_append]
  omega

end Absolute

/-- A path made absolute with the working directory. The empty path is none, and a relative one
needs a working directory. -/
def absolute? (workingDirectory : Option String) (path : String) : Option Absolute :=
  let trailing := path.toList.getLast? = some separator
  if path.isEmpty then none
  else if isAbsolute path then
    let twoSlashes :=
      match path.toList with
      | '/' :: '/' :: '/' :: _ => false
      | '/' :: '/' :: _ => true
      | _ => false
    some ⟨twoSlashes, (names path).reverse, trailing⟩
  else
    workingDirectory.map fun base => ⟨false, (names base ++ names path).reverse, trailing⟩

end Xref.Path
