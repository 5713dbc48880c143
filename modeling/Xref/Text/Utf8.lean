/-!
# UTF-8

Bytes fall into segments: scalar values, and ill-formed parts as long as the start of a scalar
value reaches. Lossy reading puts U+FFFD for each such part; strict reading reports the first.
-/

namespace Xref

abbrev Bytes := List UInt8

namespace Text.Utf8

inductive Segment where
  | scalar (c : Char)
  /-- A part that the byte after it does not continue. -/
  | illFormed (length : Nat)
  /-- A part that the end of the bytes cuts short. -/
  | unfinished (length : Nat)
  deriving DecidableEq, Repr

/-- Where a reader stands between two bytes. Inside a scalar value it knows the bits and the bytes
seen, how many bytes follow the next one, and the range of the next one. -/
inductive State where
  | between
  | inside (bits seen more : Nat) (low high : UInt8)
  deriving DecidableEq, Repr

/-- The first byte of a scalar value. The ranges of the second byte exclude overlong forms,
surrogates and values past U+10FFFF. -/
def State.enter (b : UInt8) : State × List Segment :=
  if b < 0x80 then (.between, [.scalar (Char.ofNat b.toNat)])
  else if b < 0xC2 then (.between, [.illFormed 1])
  else if b < 0xE0 then (.inside (b.toNat - 0xC0) 1 0 0x80 0xBF, [])
  else if b = 0xE0 then (.inside 0 1 1 0xA0 0xBF, [])
  else if b = 0xED then (.inside 0xD 1 1 0x80 0x9F, [])
  else if b < 0xF0 then (.inside (b.toNat - 0xE0) 1 1 0x80 0xBF, [])
  else if b = 0xF0 then (.inside 0 1 2 0x90 0xBF, [])
  else if b < 0xF4 then (.inside (b.toNat - 0xF0) 1 2 0x80 0xBF, [])
  else if b = 0xF4 then (.inside 4 1 2 0x80 0x8F, [])
  else (.between, [.illFormed 1])

/-- A byte out of range ends the part before it and is read anew. -/
def State.step : State → UInt8 → State × List Segment
  | .between, b => enter b
  | .inside bits seen more low high, b =>
    if low ≤ b ∧ b ≤ high then
      let bits := bits * 64 + (b.toNat - 0x80)
      match more with
      | 0 => (.between, [.scalar (Char.ofNat bits)])
      | more + 1 => (.inside bits (seen + 1) more 0x80 0xBF, [])
    else
      let (state, found) := enter b
      (state, .illFormed seen :: found)

def State.close : State → List Segment
  | .between => []
  | .inside _ seen .. => [.unfinished seen]

/-- The segments found so far stand in `found`, the latest first. -/
def segmentsFrom (state : State) (found : List Segment) : Bytes → List Segment
  | [] => (state.close ++ found).reverse
  | b :: rest =>
    let (state, new) := state.step b
    segmentsFrom state (new.reverse ++ found) rest

def segments (bytes : Bytes) : List Segment := segmentsFrom .between [] bytes

theorem segmentsFrom_found (state : State) (found : List Segment) (bytes : Bytes) :
    segmentsFrom state found bytes = found.reverse ++ segmentsFrom state [] bytes := by
  induction bytes generalizing state found with
  | nil => simp [segmentsFrom]
  | cons b rest ih =>
    simp only [segmentsFrom]
    rw [ih, ih _ (_ ++ [])]
    simp

def Segment.char : Segment → Char
  | .scalar c => c
  | .illFormed _ | .unfinished _ => '\uFFFD'

def lossy (bytes : Bytes) : String := String.ofList ((segments bytes).map Segment.char)

/-- Where strict reading stops: the index of the first ill-formed part, and its length unless the
end of the bytes cut it short. -/
structure Fault where
  index : Nat
  length : Option Nat
  deriving DecidableEq, Repr

def Fault.message (fault : Fault) : String :=
  match fault.length with
  | some length =>
    "invalid utf-8 sequence of " ++ toString length ++ " bytes from index " ++ toString fault.index
  | none => "incomplete utf-8 byte sequence from index " ++ toString fault.index

def firstFault (index : Nat) : List Segment → Option Fault
  | [] => none
  | .scalar c :: rest => firstFault (index + c.utf8Size) rest
  | .illFormed length :: _ => some ⟨index, some length⟩
  | .unfinished _ :: _ => some ⟨index, none⟩

def decode (bytes : Bytes) : Except Fault String :=
  let found := segments bytes
  match firstFault 0 found with
  | some fault => .error fault
  | none => .ok (String.ofList (found.map Segment.char))

def encode (text : String) : Bytes := text.toList.flatMap String.utf8EncodeChar

end Text.Utf8
end Xref
