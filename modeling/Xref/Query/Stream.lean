import Xref.SystemError
import Xref.Text.Utf8

/-!
# Reading a stream in chunks

A stream is the list of what its reads find. The reader offers at most a chunk of its buffer at a
time and lengthens the buffer by a chunk when it is full. Interruptions do not count; any other
failure discards what was read.
-/

namespace Xref.Query

inductive Piece where
  /-- Handed out over as many reads as it takes. Without bytes it is the end of the stream. -/
  | data (bytes : Bytes)
  | failure (error : SystemError)
  deriving DecidableEq, Repr

/-- The bytes read stand with the latest first. -/
structure Buffer where
  length : Nat
  filled : Nat := 0
  kept : Bytes := []
  deriving DecidableEq, Repr

namespace Buffer

def grow (chunk : Nat) (b : Buffer) : Buffer :=
  if b.filled = b.length then { b with length := b.length + chunk } else b

def limit (chunk : Nat) (b : Buffer) : Nat := min (b.filled + chunk) b.length

def room (chunk : Nat) (b : Buffer) : Nat := b.limit chunk - b.filled

def add (b : Buffer) (bytes : Bytes) : Buffer :=
  { b with filled := b.filled + bytes.length, kept := bytes.reverse ++ b.kept }

def bytes (b : Buffer) : Bytes := b.kept.reverse

theorem bytes_grow (chunk : Nat) (b : Buffer) : (b.grow chunk).bytes = b.bytes := by
  unfold grow
  split <;> rfl

theorem bytes_add (b : Buffer) (more : Bytes) : (b.add more).bytes = b.bytes ++ more := by
  simp [bytes, add]

end Buffer

/-- How reading a stream ends, with the room that each read was offered. -/
structure Drained where
  result : Except SystemError Bytes
  asked : List Nat

def Piece.weight : Piece → Nat
  | .data bytes => bytes.length + 1
  | .failure _ => 1

def weight : List Piece → Nat
  | [] => 0
  | piece :: rest => piece.weight + weight rest

/-- The room offered so far stands in `asked`, the latest first. -/
def drainFrom (chunk : Nat) (buffer : Buffer) (asked : List Nat) (pieces : List Piece) : Drained :=
  let buffer := buffer.grow chunk
  let room := buffer.room chunk
  let asked := room :: asked
  match pieces with
  | [] => ⟨.ok buffer.bytes, asked.reverse⟩
  | .failure e :: rest =>
    if e = .interrupted then drainFrom chunk buffer asked rest else ⟨.error e, asked.reverse⟩
  | .data bytes :: rest =>
    if _h : bytes = [] ∨ room = 0 then ⟨.ok buffer.bytes, asked.reverse⟩
    else
      let taken := bytes.take room
      let left := bytes.drop room
      drainFrom chunk (buffer.add taken) asked (if left = [] then rest else .data left :: rest)
termination_by weight pieces
decreasing_by
  · simp [weight, Piece.weight]
  · rw [not_or] at _h
    have hl := List.length_pos_iff.mpr _h.1
    have hr : room ≠ 0 := _h.2
    split
    · simp [weight, Piece.weight]
    · simp only [weight, Piece.weight, List.length_drop]
      change bytes.length - room + 1 + _ < _
      omega

/-- A chunk has at least one byte. -/
def drain (chunk : Nat) (pieces : List Piece) : Drained :=
  drainFrom (max 1 chunk) ⟨max 1 chunk, 0, []⟩ [] pieces

/-- What a stream gives before its end or its first failure of any kind. -/
def salvage : List Piece → Bytes
  | .data bytes :: rest => if bytes = [] then [] else bytes ++ salvage rest
  | _ => []

-- ---------------------------------------------------------------------------
-- Buffers that cannot be had
-- ---------------------------------------------------------------------------

/-- A longer buffer is refused, which ends the whole program. -/
def maxBufferLength : Nat := 0x7FFFFFFFFFFFFFFF

/-- How many bytes come before the end or the first failure that is no interruption. -/
def received : List Piece → Nat
  | [] => 0
  | .data bytes :: rest => if bytes = [] then 0 else bytes.length + received rest
  | .failure e :: rest => if e = .interrupted then received rest else 0

/-- The length of the buffer at the last read: a whole number of chunks, with room past the end. -/
def lastLength (chunk : Nat) (pieces : List Piece) : Nat :=
  max 1 chunk * (received pieces / max 1 chunk + 1)

def outgrows (chunk : Nat) (pieces : List Piece) : Bool := maxBufferLength < lastLength chunk pieces

end Xref.Query
