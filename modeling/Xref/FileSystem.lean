import Std.Data.TreeMap
import Xref.Path
import Xref.SystemError
import Xref.Text.Utf8

/-!
# File system

Entries by location, and the resolution of paths: from left to right through what exists, where a
link is followed at once and ".." leaves the directory that was reached.
-/

namespace Xref

/-- The names on the way from the root, the innermost first. -/
abbrev Location := List String

inductive Entry where
  | directory
  | file (content : Bytes) (runnable : Bool)
  | link (target : String)
  deriving DecidableEq, Repr

namespace Location

/-- A location with its depth, which tells most locations apart without a look at their names. -/
structure Key where
  depth : Nat
  location : Location

def key (location : Location) : Key := ⟨location.length, location⟩

theorem key_inj {location other : Location} : location.key = other.key ↔ location = other :=
  ⟨congrArg Key.location, congrArg key⟩

def order : Key → Key → Ordering := compareLex (compareOn Key.depth) (compareOn Key.location)

instance : Std.TransCmp order := inferInstanceAs (Std.TransCmp (compareLex _ _))

instance : Std.LawfulEqCmp order where
  eq_of_compare {a b} h := by
    cases a
    cases b
    simp_all [order, compareLex, compareOn, Ordering.then_eq_eq]

end Location

/-- What stands under a name: an entry that has no other name, or the number of one that may. -/
inductive Slot where
  | own (entry : Entry)
  | shared (number : Nat)
  deriving DecidableEq, Repr

/-- What fails though the entries allow it, for want of rights or of space or with the disk. -/
structure Limits where
  opening : Location → Option SystemError := fun _ => none
  /-- How many bytes a file takes, and the error behind them. -/
  writing : Location → Option (Nat × SystemError) := fun _ => none
  moving : Location → Location → Option SystemError := fun _ _ => none

/-- The root is always a directory, and not in the table. A node is the entry that the names with
its number share. -/
structure FileSystem where
  table : Std.TreeMap Location.Key Slot Location.order
  nodes : Nat → Entry := fun _ => .file [] false
  limits : Limits := {}

/-- A directory that may have been unlinked while it was in use. The innermost names that are gone
are counted; of these there is nothing left but the way up. -/
structure Place where
  location : Location
  unlinked : Nat := 0
  deriving DecidableEq, Repr

def Place.root : Place := ⟨[], 0⟩

def Place.parent (p : Place) : Place := ⟨p.location.tail, p.unlinked - 1⟩

/-- A place below a location that is removed keeps the way up. -/
def Place.unlink (p : Place) (location : Location) : Place :=
  if location.isSuffixOf (p.location.drop p.unlinked) then
    { p with unlinked := p.location.length - location.length + 1 }
  else p

def Location.text (location : Location) : String := "/" ++ "/".intercalate location.reverse

/-- What a path resolves to: something that is there, or a free name in a directory. -/
inductive Target where
  | found (place : Place)
  | vacant (directory : Location) (name : String)
  deriving DecidableEq, Repr

/-- What a path is resolved for. Only `entry` leaves a link at the end alone, and only `creation`
refuses a separator after the last name. -/
inductive Purpose where
  | inspection
  | creation
  | entry
  deriving DecidableEq, Repr

namespace FileSystem

def slot? (fs : FileSystem) (location : Location) : Option Slot := fs.table[location.key]?

def read (fs : FileSystem) : Slot → Entry
  | .own entry => entry
  | .shared number => fs.nodes number

def entries (fs : FileSystem) (location : Location) : Option Entry :=
  (fs.slot? location).map fs.read

def empty : FileSystem := { table := ∅ }

-- ---------------------------------------------------------------------------
-- Names
-- ---------------------------------------------------------------------------

def put (fs : FileSystem) (location : Location) (entry : Option Entry) : FileSystem :=
  { fs with table := fs.table.alter location.key fun _ => entry.map .own }

def prune (fs : FileSystem) (location : Location) : FileSystem :=
  { fs with table := fs.table.filter fun key _ => !location.isSuffixOf key.location }

theorem entries_empty (location : Location) : empty.entries location = none := by
  simp [entries, slot?, empty]

theorem slot?_put (fs : FileSystem) (location other : Location) (entry : Option Entry) :
    (fs.put location entry).slot? other =
      if other = location then entry.map .own else fs.slot? other := by
  simp only [slot?, put, Std.TreeMap.getElem?_alter, Std.LawfulEqCmp.compare_eq_iff_eq,
    Location.key_inj, eq_comm (a := location)]

theorem entries_put (fs : FileSystem) (location other : Location) (entry : Option Entry) :
    (fs.put location entry).entries other =
      if other = location then entry else fs.entries other := by
  rw [entries, slot?_put]
  split
  · cases entry <;> rfl
  · rfl

theorem entries_prune (fs : FileSystem) (location other : Location) :
    (fs.prune location).entries other =
      if location.isSuffixOf other then none else fs.entries other := by
  simp only [entries, slot?, prune, Std.TreeMap.getElem?_filter']
  cases h : location.isSuffixOf other <;> cases ho : fs.table[other.key]? <;>
    simp [Location.key, h, read]

-- ---------------------------------------------------------------------------
-- Entries with more than one name
-- ---------------------------------------------------------------------------

def number? (fs : FileSystem) (location : Location) : Option Nat :=
  match fs.slot? location with
  | some (.shared number) => some number
  | _ => none

def Twins (fs : FileSystem) (location other : Location) : Prop :=
  other = location ∨ fs.number? location ≠ none ∧ fs.number? other = fs.number? location

instance (fs : FileSystem) (location other : Location) : Decidable (fs.Twins location other) :=
  inferInstanceAs (Decidable (_ ∨ _))

/-- Puts an entry under a name, and so under all that its entry has. -/
def rewrite (fs : FileSystem) (location : Location) (entry : Entry) : FileSystem :=
  match fs.number? location with
  | some number =>
    { fs with nodes := fun other => if other = number then entry else fs.nodes other }
  | none => fs.put location (some entry)

/-- Gives an entry another name in place of its own. Two names of one entry both stay. -/
def move (fs : FileSystem) (source target : Location) : FileSystem :=
  if fs.Twins source target then fs
  else
    { fs with
      table := (fs.table.alter source.key fun _ => none).alter target.key fun _ =>
        fs.slot? source }

theorem number?_eq_some_iff {fs : FileSystem} {location : Location} {number : Nat} :
    fs.number? location = some number ↔ fs.slot? location = some (.shared number) := by
  unfold number?
  split <;> simp_all

theorem number?_eq_none {fs : FileSystem} {location : Location}
    (h : fs.entries location = none) : fs.number? location = none := by
  rw [number?, Option.map_eq_none_iff.mp h]

theorem Twins.entries_eq {fs : FileSystem} {location other : Location}
    (h : fs.Twins location other) : fs.entries other = fs.entries location := by
  obtain rfl | ⟨hn, ho⟩ := h
  · rfl
  · obtain ⟨number, hn⟩ := Option.ne_none_iff_exists'.mp hn
    rw [entries, entries, number?_eq_some_iff.mp hn, number?_eq_some_iff.mp (ho.trans hn)]

theorem Twins.eq_of_none {fs : FileSystem} {location other : Location}
    (h : fs.Twins location other) (hn : fs.entries location = none) : other = location :=
  h.resolve_right fun hs => hs.1 (number?_eq_none hn)

theorem entries_rewrite (fs : FileSystem) (location other : Location) (entry : Entry) :
    (fs.rewrite location entry).entries other =
      if fs.Twins location other then some entry else fs.entries other := by
  unfold rewrite
  split
  · next number hn =>
    change (fs.slot? other).map _ = _
    split
    · next h =>
      have ho : fs.slot? other = some (.shared number) := by
        obtain rfl | ⟨-, ho⟩ := h
        · exact number?_eq_some_iff.mp hn
        · exact number?_eq_some_iff.mp (ho.trans hn)
      simp [ho, read]
    · next h =>
      have ho : fs.slot? other ≠ some (.shared number) := fun ho =>
        h (.inr ⟨by simp [hn], by rw [number?_eq_some_iff.mpr ho, hn]⟩)
      refine Option.map_congr fun slot hs => ?_
      cases slot with
      | own => rfl
      | shared other =>
        have hne : other ≠ number := by
          rintro rfl
          exact ho hs
        simp [read, hne]
  · next hn =>
    rw [entries_put]
    simp [Twins, hn]

theorem number?_rewrite (fs : FileSystem) (location other : Location) (entry : Entry) :
    (fs.rewrite location entry).number? other = fs.number? other := by
  unfold rewrite
  split
  · rfl
  · next hn =>
    by_cases ho : other = location
    · rw [ho, hn, number?, slot?_put, if_pos rfl]
      rfl
    · rw [number?, slot?_put, if_neg ho, number?]

theorem twins_rewrite (fs : FileSystem) (location source target : Location) (entry : Entry) :
    (fs.rewrite location entry).Twins source target ↔ fs.Twins source target := by
  simp [Twins, number?_rewrite]

theorem move_of_twins {fs : FileSystem} {source target : Location} (h : fs.Twins source target) :
    fs.move source target = fs :=
  if_pos h

theorem entries_move {fs : FileSystem} {source target : Location} (h : ¬fs.Twins source target)
    (other : Location) :
    (fs.move source target).entries other =
      if other = target then fs.entries source
      else if other = source then none else fs.entries other := by
  rw [move, if_neg h]
  simp only [entries, slot?, Std.TreeMap.getElem?_alter, Std.LawfulEqCmp.compare_eq_iff_eq,
    Location.key_inj, eq_comm (b := other)]
  split
  · rfl
  · split <;> rfl

theorem entries_move_of_ne (fs : FileSystem) {source target other : Location}
    (hs : other ≠ source) (ht : other ≠ target) :
    (fs.move source target).entries other = fs.entries other := by
  by_cases h : fs.Twins source target
  · rw [move_of_twins h]
  · rw [entries_move h, if_neg ht, if_neg hs]

-- ---------------------------------------------------------------------------
-- Resolution
-- ---------------------------------------------------------------------------

def entryAt (fs : FileSystem) (p : Place) : Option Entry :=
  if p.unlinked ≠ 0 ∨ p.location = [] then some .directory else fs.entries p.location

def isDirectory (fs : FileSystem) (p : Place) : Bool := fs.entryAt p = some .directory

inductive Stop where
  | target (target : Target)
  | link (directory : Place) (target : String) (rest : List String)
  deriving DecidableEq, Repr

def maxNameSize : Nat := 255
def maxPathSize : Nat := 4095
def maxLinks : Nat := 40

/-- Follows names up to the first link that has to be followed. -/
def advance (fs : FileSystem) (purpose : Purpose) (p : Place) :
    List String → Except SystemError Stop
  | [] => .ok (.target (.found p))
  | name :: rest =>
    if !fs.isDirectory p then .error .notDirectory
    else if name = "" ∨ name = "." then advance fs purpose p rest
    else if name = ".." then advance fs purpose p.parent rest
    else if purpose = .creation ∧ rest ≠ [] ∧ rest.all (·.isEmpty) then .error .isDirectory
    else if p.unlinked ≠ 0 then .error .notFound
    else if name.utf8ByteSize > maxNameSize then .error .nameTooLong
    else
      match fs.entries (name :: p.location) with
      | none =>
        if rest = [] then .ok (.target (.vacant p.location name)) else .error .notFound
      | some (.link target) =>
        if rest = [] ∧ purpose = .entry then .ok (.target (.found ⟨name :: p.location, 0⟩))
        else .ok (.link p target rest)
      | some _ => advance fs purpose ⟨name :: p.location, 0⟩ rest

/-- Follows at most `links` links more. -/
def walk (fs : FileSystem) (purpose : Purpose) (links : Nat) (p : Place) (names : List String) :
    Except SystemError Target :=
  match fs.advance purpose p names with
  | .error e => .error e
  | .ok (.target target) => .ok target
  | .ok (.link directory target rest) =>
    match links with
    | 0 => .error .tooManyLinks
    | links + 1 =>
      let start := if Path.isAbsolute target then Place.root else directory
      walk fs purpose links start (Path.pieces target ++ rest)

def resolve (fs : FileSystem) (purpose : Purpose) (base : Place) (path : String) :
    Except SystemError Target :=
  if path.toList.contains '\x00' then .error .nulInFileName
  else if path.isEmpty then .error .notFound
  else if path.utf8ByteSize > maxPathSize then .error .nameTooLong
  else
    fs.walk purpose maxLinks (if Path.isAbsolute path then Place.root else base) (Path.pieces path)

end FileSystem
end Xref
