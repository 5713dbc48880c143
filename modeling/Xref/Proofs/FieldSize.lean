import Xref.Proofs.LineGrammar
import Xref.Proofs.Pieces
import Xref.Proofs.TextSize

/-!
# What the room of a field bounds

The bytes of a field are cut to its room before they are read as text. The room therefore bounds
the text only of bytes that are valid up to the cut; where they are not, U+FFFD comes in and takes
room that was not counted. This says by how much a text can be longer than the room of its field.
-/

namespace Xref.Listing

open Text.Utf8

/-- A text that a field holds: read from the first bytes of what the line has for it, as many as
there is room for. The bytes fit, but the text may be longer than they are. -/
structure Holds (room : Nat) (field : Bytes) (text : String) : Prop where
  text_eq : text = lossy (field.take room)
  size_eq : text.utf8ByteSize = min room field.length + growth (field.take room)
  fits_iff : text.utf8ByteSize ≤ room ↔ growth (field.take room) ≤ room - field.length
  le_three_mul : text.utf8ByteSize ≤ 3 * room

theorem holds_lossy (room : Nat) (field : Bytes) : Holds room field (lossy (field.take room)) := by
  have hsize := utf8ByteSize_lossy (field.take room)
  have hgrowth := growth_le (field.take room)
  rw [List.length_take] at hsize hgrowth
  exact ⟨rfl, hsize, by omega, by omega⟩

structure HoldsValid (room : Nat) (field : Bytes) (text : String) : Prop where
  le_add_two : text.utf8ByteSize ≤ room + 2
  le_of_fits : field.length ≤ room → text.utf8ByteSize = field.length

theorem Holds.of_valid {room : Nat} {field : Bytes} {text : String} (h : Holds room field text)
    (hv : Valid field) : HoldsValid room field text := by
  have hsize := h.size_eq
  have hwhole : Valid (field.take room ++ field.drop room) := by rwa [List.take_append_drop]
  have hcut : growth (field.take room) ≤ 2 := hwhole.growth_front
  refine ⟨by omega, fun hfits => ?_⟩
  rw [List.take_of_length_le hfits, hv.growth_eq] at hsize
  omega

theorem valid_of_mem_splitOn {output line : Bytes} (h : Valid output)
    (hm : line ∈ output.splitOn newline) : Valid line := by
  obtain ⟨-, front, back, rfl, hfront, hback⟩ := exists_of_mem_splitOn hm
  have hline : Valid (line ++ back) := by
    obtain rfl | ⟨more, rfl⟩ := hfront
    · exact h
    · rw [List.append_assoc, List.append_assoc] at h
      exact (h.split (by decide)).2
  obtain rfl | ⟨more, rfl⟩ := hback
  · rwa [List.append_nil] at hline
  · exact (hline.split (by decide)).1

/-- The texts of a record by what its line has for them. Their bytes are cut to the room that there
is, but U+FFFD comes in afterwards: a text can be three times as long as the room, or two bytes
longer if the output is a valid text. -/
theorem sizes_of_mem_records {output : Bytes} {r : Record} (h : r ∈ records output) :
    ∃ path holder digits rest,
      path ++ space :: (holder ++ space :: (digits ++ space :: rest)) ∈ output.splitOn newline ∧
        (space ∉ path ∧ space ∉ holder ∧ space ∉ digits) ∧
        (Holds 1023 path r.file ∧ Holds 255 holder r.scope ∧ Holds 1023 rest r.context) ∧
        ∀ text, decode output = .ok text →
          HoldsValid 1023 path r.file ∧ HoldsValid 255 holder r.scope ∧
            HoldsValid 1023 rest r.context := by
  obtain ⟨path, holder, digits, rest, hm, hp, hh, hd, rfl⟩ := exists_fields_of_mem_records h
  have hpath := holds_lossy 1023 path
  have hholder := holds_lossy 255 holder
  have hrest := holds_lossy 1023 rest
  refine ⟨path, holder, digits, rest, hm, ⟨hp, hh, hd⟩, ⟨hpath, hholder, hrest⟩, ?_⟩
  intro text hdecode
  have hline := valid_of_mem_splitOn (valid_of_decode hdecode) hm
  obtain ⟨hvpath, hline⟩ := hline.split (by decide)
  obtain ⟨hvholder, hline⟩ := hline.split (by decide)
  obtain ⟨-, hvrest⟩ := hline.split (by decide)
  exact ⟨hpath.of_valid hvpath, hholder.of_valid hvholder, hrest.of_valid hvrest⟩

theorem sizes_of_mem_records_no_characters :
    let part (n : Nat) := List.replicate n (0xFF : UInt8)
    ∃ r ∈ records (part 1023 ++ space :: (part 255 ++ space :: ([] ++ space :: part 1023))),
      r.file.utf8ByteSize = 3 * 1023 ∧ r.scope.utf8ByteSize = 3 * 255 ∧
        r.context.utf8ByteSize = 3 * 1023 := by
  intro part
  have hpart {b : UInt8} (hb : b ≠ 0xFF) (n : Nat) : b ∉ part n := fun hm =>
    hb (List.eq_of_mem_replicate hm)
  have hspace := hpart (b := space) (by decide)
  have hnewline := hpart (b := newline) (by decide)
  have hsize (n : Nat) : 3 * n ≤ (lossy ((part n).take n)).utf8ByteSize := by
    have hlength : (part n).length = n := List.length_replicate
    rw [List.take_of_length_le (Nat.le_of_eq hlength), utf8ByteSize_lossy, hlength,
      growth_replicate]
    omega
  have hs : newline ≠ space := by decide
  have hm := mem_records_of_fields (part 1023) (part 255) [] (part 1023) (hspace 1023) (hspace 255)
    List.not_mem_nil (by simp [hnewline, hs])
  obtain ⟨path, holder, digits, rest, -, -, ⟨hpath, hholder, hrest⟩, -⟩ := sizes_of_mem_records hm
  exact ⟨_, hm, Nat.le_antisymm hpath.le_three_mul (hsize 1023),
    Nat.le_antisymm hholder.le_three_mul (hsize 255),
    Nat.le_antisymm hrest.le_three_mul (hsize 1023)⟩

/-- A scope of one byte more than there is room for, whose last letter takes two bytes. -/
theorem scope_outgrows_room :
    let scope : Bytes := List.replicate 254 0x78 ++ [0xC3, 0xA9]
    let output :=
      encode "a.c" ++ space :: (scope ++ space :: (encode "3" ++ space :: encode "f();"))
    (∃ text, decode output = .ok text) ∧ ∃ r ∈ records output, r.scope.utf8ByteSize = 257 := by
  intro scope output
  have hvalid : firstFault 0 (segments output) = none := by decide +kernel
  have hgrowth : growth (scope.take 255) = 2 := by decide +kernel
  have hlength : (scope.take 255).length = 255 := by decide +kernel
  have hm := mem_records_of_fields (encode "a.c") scope (encode "3") (encode "f();")
    (by decide +kernel) (by decide +kernel) (by decide +kernel) (by decide +kernel)
  refine ⟨exists_decode hvalid, _, hm, ?_⟩
  rw [utf8ByteSize_lossy, hgrowth, hlength]

end Xref.Listing
