import Mathlib.Data.List.Induction
import Mathlib.Data.List.TakeWhile
import Xref.Proofs.LeadingNumber
import Xref.Proofs.LineGrammar
import Xref.Proofs.Utf8

/-!
# Query output written and read back

Records that fit the room of their fields come back from the output that they are written to, in
their order, whatever lines without a record stand between them.
-/

namespace Xref

open Text.Utf8 (encode)

-- ---------------------------------------------------------------------------
-- Decimal numbers
-- ---------------------------------------------------------------------------

namespace Numeral

def digitByte (c : Char) : UInt8 := UInt8.ofNat c.toNat

theorem toNat_digitByte {c : Char} (h : c.isDigit = true) :
    (digitByte c).toNat = c.toNat ∧ 0x30 ≤ c.toNat ∧ c.toNat ≤ 0x39 := by
  have hd : 0x30 ≤ c.toNat ∧ c.toNat ≤ 0x39 := Char.isDigit_iff_toNat.mp h
  exact ⟨Text.Utf8.toNat_byte (by omega), hd⟩

theorem isDigitByte_digitByte {c : Char} (h : c.isDigit = true) :
    isDigitByte (digitByte c) = true := by
  obtain ⟨hc, hd⟩ := toNat_digitByte h
  rwa [isDigitByte_iff, hc]

theorem foldl_pushDigit {digits : List Char} (h : ∀ c ∈ digits, c.isDigit = true) (value : Nat) :
    (digits.map digitByte).foldl pushDigit value = Nat.ofDigitChars 10 digits value := by
  induction digits generalizing value with
  | nil => simp
  | cons c digits ih =>
    have hc := toNat_digitByte (h c List.mem_cons_self)
    rw [List.map_cons, List.foldl_cons, pushDigit, hc.1, Nat.mul_comm,
      ih fun d hd => h d (List.mem_cons_of_mem _ hd), Nat.ofDigitChars_cons]
    rfl

theorem leading_digits (cap : Nat) {digits : List Char} (h : ∀ c ∈ digits, c.isDigit = true) :
    leading cap (digits.map digitByte) = min cap (Nat.ofDigitChars 10 digits 0) := by
  have hb : ∀ b ∈ digits.map digitByte, isDigitByte b = true := by
    simpa using fun c hc => isDigitByte_digitByte (h c hc)
  have hp := Parts.longest_digits hb
  have hbytes : Parts.toBytes ⟨[], false, digits.map digitByte, []⟩ = digits.map digitByte := by
    simp [Parts.toBytes, Parts.sign]
  rw [← hbytes, hp.leading_toBytes, Parts.number, ← ofDigits_eq, ofDigits, foldl_pushDigit h]

theorem encode_toString (n : Nat) : encode (toString n) = (Nat.toDigits 10 n).map digitByte := by
  have hc : ∀ c ∈ Nat.toDigits 10 n, String.utf8EncodeChar c = [digitByte c] := by
    intro c hc
    have hd := toNat_digitByte (Nat.isDigit_of_mem_toDigits (by decide) (by decide) hc)
    exact Text.Utf8.encodeChar_of_lt (by omega)
  rw [encode, Nat.toString_eq_ofList_toDigits, String.toList_ofList, List.flatMap_def,
    List.map_congr_left hc, ← List.flatMap_def, ← List.map_eq_flatMap]

theorem leading_toString (cap n : Nat) : leading cap (encode (toString n)) = min cap n := by
  rw [encode_toString, leading_digits cap fun c hc =>
    Nat.isDigit_of_mem_toDigits (by decide) (by decide) hc, Nat.ofDigitChars_ten_toDigits]

end Numeral

-- ---------------------------------------------------------------------------
-- One record
-- ---------------------------------------------------------------------------

/-- The fields have room for the record, and no byte of it ends one of them. -/
structure Record.Fits (r : Record) : Prop where
  file : ' ' ∉ r.file.toList ∧ '\n' ∉ r.file.toList ∧ r.file.utf8ByteSize ≤ 1023
  scope : ' ' ∉ r.scope.toList ∧ '\n' ∉ r.scope.toList ∧ r.scope.utf8ByteSize ≤ 255
  line : 1 ≤ r.line.toNat ∧ r.line.toNat ≤ 9999999
  context : '\n' ∉ r.context.toList ∧ r.context.utf8ByteSize ≤ 1023

namespace Listing

def recordLine (r : Record) : Bytes :=
  encode r.file ++ space :: (encode r.scope ++ space :: (encode (toString r.line.toNat) ++
    space :: encode r.context))

theorem not_mem_encode {b : UInt8} (hb : b.toNat < 0x80) {text : String}
    (h : Char.ofNat b.toNat ∉ text.toList) : b ∉ encode text :=
  fun hm => h (Text.Utf8.mem_of_mem_encode hb hm)

theorem not_mem_encode_toString {b : UInt8} (hb : Numeral.isDigitByte b = false) (n : Nat) :
    b ∉ encode (toString n) := by
  rw [Numeral.encode_toString]
  intro hm
  obtain ⟨c, hc, rfl⟩ := List.mem_map.mp hm
  have hd := Nat.isDigit_of_mem_toDigits (by decide) (by decide) hc
  rw [Numeral.isDigitByte_digitByte hd] at hb
  cases hb

theorem length_encode_toString {n : Nat} (h : n ≤ 9999999) : (encode (toString n)).length ≤ 7 := by
  rw [Numeral.encode_toString, List.length_map, Nat.length_toDigits_le_iff (by decide) (by decide)]
  omega

theorem take_encode {text : String} {room : Nat} (h : text.utf8ByteSize ≤ room) :
    (encode text).take room = encode text :=
  List.take_of_length_le (by rwa [Text.Utf8.length_encode])

theorem newline_not_mem_recordLine {r : Record} (h : r.Fits) : newline ∉ recordLine r := by
  have hs : newline ≠ space := by decide
  simp only [recordLine, List.mem_append, List.mem_cons, not_or]
  exact ⟨not_mem_encode (by decide) h.file.2.1, hs, not_mem_encode (by decide) h.scope.2.1, hs,
    not_mem_encode_toString (by decide) _, hs, not_mem_encode (by decide) h.context.1⟩

theorem lineNumber_digits {line : UInt32} (h : line.toNat ≤ 9999999) :
    lineNumber ((encode (toString line.toNat)).take 7) = line.toNat := by
  rw [List.take_of_length_le (length_encode_toString h), lineNumber, Numeral.leading_toString]
  exact Nat.min_eq_right (Nat.le_sub_one_of_lt line.toNat_lt)

theorem ofLine?_recordLine {r : Record} (h : r.Fits) : ofLine? (recordLine r) = some r := by
  rw [recordLine, ofLine?_fields _ (not_mem_encode (by decide) h.file.1)
    (not_mem_encode (by decide) h.scope.1) (not_mem_encode_toString (by decide) r.line.toNat),
    take_encode h.file.2.2, take_encode h.scope.2.2, take_encode h.context.2,
    lineNumber_digits h.line.2, Nat.max_eq_right h.line.1, UInt32.ofNat_toNat]
  simp only [Text.Utf8.lossy_encode]

-- ---------------------------------------------------------------------------
-- Whole outputs
-- ---------------------------------------------------------------------------

inductive Piece where
  | record (r : Record)
  | other (line : Bytes)
  deriving DecidableEq, Repr

namespace Piece

def line : Piece → Bytes
  | .record r => recordLine r
  | .other line => line

def record? : Piece → Option Record
  | .record r => some r
  | .other _ => none

/-- A line without a record is empty or short of spaces, and one line only. -/
def Valid : Piece → Prop
  | .record r => r.Fits
  | .other line => newline ∉ line ∧ line.count space < 3

theorem newline_not_mem_line {piece : Piece} (h : piece.Valid) : newline ∉ piece.line := by
  cases piece with
  | record r => exact newline_not_mem_recordLine h
  | other line => exact h.1

theorem ofLine?_line {piece : Piece} (h : piece.Valid) : ofLine? piece.line = piece.record? := by
  cases piece with
  | record r => exact ofLine?_recordLine h
  | other line => exact (ofLine?_eq_none_iff line).mpr h.2

end Piece

def written (pieces : List Piece) : Bytes := pieces.flatMap fun piece => piece.line ++ [newline]

theorem records_line {line : Bytes} (h : newline ∉ line) :
    records line = (ofLine? line).toList := by
  rw [records_eq_filterMap, List.splitOn_eq_singleton h]
  cases hl : ofLine? line <;> simp [hl]

theorem records_concat_newline (output : Bytes) :
    records (output ++ [newline]) = records output := by
  rw [records_append_newline, records_line List.not_mem_nil]
  exact List.append_nil _

theorem records_written {pieces : List Piece} (h : ∀ piece ∈ pieces, piece.Valid) :
    records (written pieces) = pieces.filterMap Piece.record? := by
  induction pieces with
  | nil => rfl
  | cons piece rest ih =>
    have hp : piece.Valid := h piece List.mem_cons_self
    have hw : written (piece :: rest) = piece.line ++ newline :: written rest := by
      simp [written]
    rw [hw, records_append_newline, records_line (Piece.newline_not_mem_line hp),
      Piece.ofLine?_line hp, ih fun p hm => h p (List.mem_cons_of_mem _ hm)]
    cases hr : piece.record? <;> simp [hr]

theorem records_dropLast_written (pieces : List Piece) :
    records (written pieces).dropLast = records (written pieces) := by
  cases pieces using List.reverseRecOn with
  | nil => rfl
  | append_singleton pieces piece =>
    have hw : written (pieces ++ [piece]) = (written pieces ++ piece.line) ++ [newline] := by
      simp [written]
    rw [hw, List.dropLast_concat, records_concat_newline]

/-- Reading returns the records that were written, all and in order, and nothing for the lines
between them. The last newline may be left out. -/
theorem records_of_written {rs : List Record} {pieces : List Piece}
    (hr : pieces.filterMap Piece.record? = rs) (h : ∀ piece ∈ pieces, piece.Valid) :
    records (written pieces) = rs ∧ records (written pieces).dropLast = rs := by
  rw [records_dropLast_written, records_written h]
  exact ⟨hr, hr⟩

theorem records_of_written_bare_fields :
    let full : Record := ⟨"src/a.c", "", 9999999, ""⟩
    let bare : Record := ⟨"", "é", 1, " x  y "⟩
    let pieces := [.other [], .record full, .other [space, 0xFF, space], .record bare]
    full.Fits ∧ bare.Fits ∧ records (written pieces) = [full, bare] ∧
      records (written pieces).dropLast = [full, bare] := by
  intro full bare pieces
  have hf : full.Fits := by
    constructor <;> decide +kernel
  have hb : bare.Fits := by
    constructor <;> decide +kernel
  refine ⟨hf, hb, records_of_written rfl ?_⟩
  simp only [pieces, List.forall_mem_cons, List.not_mem_nil, false_implies, implies_true, and_true]
  exact ⟨by constructor <;> decide, hf, by constructor <;> decide, hb⟩

end Listing
end Xref
