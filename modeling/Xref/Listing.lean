import Xref.Numeral
import Xref.Record

/-!
# Query output

The tool writes a line for each match: file, scope, line number and context, with one space
between. The context runs to the end of the line. The bytes are read once, from left to right;
a line with fewer than three spaces yields nothing.
-/

namespace Xref.Listing

def space : UInt8 := 0x20
def newline : UInt8 := 0x0A

/-- A field being read. Once its room is used up further bytes are dropped. -/
structure Field where
  room : Nat
  /-- Latest byte first. -/
  kept : Bytes := []
  deriving DecidableEq, Repr

def Field.push (f : Field) (b : UInt8) : Field :=
  match f.room with
  | 0 => f
  | room + 1 => ⟨room, b :: f.kept⟩

def Field.bytes (f : Field) : Bytes := f.kept.reverse

/-- A line being read: the bytes of the fields it has closed, and the open field. -/
inductive Line where
  | file (field : Field)
  | scope (path : Bytes) (field : Field)
  | number (path holder : Bytes) (field : Field)
  | context (path holder digits : Bytes) (field : Field)
  deriving DecidableEq, Repr

def fileRoom : Nat := 1023
def scopeRoom : Nat := 255
def numberRoom : Nat := 7
def contextRoom : Nat := 1023

def Line.start : Line := .file ⟨fileRoom, []⟩

/-- A space closes each field but the context. -/
def Line.push (line : Line) (b : UInt8) : Line :=
  match line with
  | .file f => if b = space then .scope f.bytes ⟨scopeRoom, []⟩ else .file (f.push b)
  | .scope path f =>
    if b = space then .number path f.bytes ⟨numberRoom, []⟩ else .scope path (f.push b)
  | .number path holder f =>
    if b = space then .context path holder f.bytes ⟨contextRoom, []⟩
    else .number path holder (f.push b)
  | .context path holder digits f => .context path holder digits (f.push b)

def lineCap : Nat := UInt32.size - 1

def lineNumber (bytes : Bytes) : Nat := Numeral.leading lineCap bytes

/-- Lines count from one, so a field without a number means the first line. -/
def Line.record? : Line → Option Record
  | .context path holder digits f =>
    some {
      file := Text.Utf8.lossy path
      scope := Text.Utf8.lossy holder
      line := UInt32.ofNat (max 1 (lineNumber digits))
      context := Text.Utf8.lossy f.bytes }
  | _ => none

/-- The records found so far stand in `found`, the latest first. -/
def recordsFrom (line : Line) (found : List Record) : Bytes → List Record
  | [] => (line.record?.toList ++ found).reverse
  | b :: rest =>
    if b = newline then recordsFrom .start (line.record?.toList ++ found) rest
    else recordsFrom (line.push b) found rest

def records (output : Bytes) : List Record := recordsFrom .start [] output

theorem recordsFrom_found (line : Line) (found : List Record) (bytes : Bytes) :
    recordsFrom line found bytes = found.reverse ++ recordsFrom line [] bytes := by
  induction bytes generalizing line found with
  | nil => simp [recordsFrom]
  | cons b rest ih =>
    simp only [recordsFrom]
    split
    · rw [ih, ih _ (_ ++ [])]
      simp
    · exact ih _ _

end Xref.Listing
