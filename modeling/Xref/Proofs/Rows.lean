import Xref.Proofs.LineGrammar
import Xref.Proofs.Pieces
import Xref.Proofs.Utf8
import Xref.Terminal

/-!
# One row for each record

The newlines of query output are gone from its records, so a record that is printed stays on its
row: of what is printed the rows can be told apart again, and their number is that of the records.
-/

namespace Xref

open Text.Utf8 (lossy Plain)

-- ---------------------------------------------------------------------------
-- Records
-- ---------------------------------------------------------------------------

/-- What separates the fields and the lines of query output stands in no field that it ends. -/
structure Record.Presentable (r : Record) : Prop where
  file : ' ' ∉ r.file.toList ∧ '\n' ∉ r.file.toList
  scope : ' ' ∉ r.scope.toList ∧ '\n' ∉ r.scope.toList
  context : '\n' ∉ r.context.toList

namespace Listing

theorem plain_space : Plain space := ⟨by decide, by decide⟩

theorem plain_newline : Plain newline := ⟨by decide, by decide⟩

theorem presentable_of_mem_records {output : Bytes} {r : Record} (h : r ∈ records output) :
    r.Presentable := by
  obtain ⟨path, holder, digits, rest, hm, hp, hh, -, rfl⟩ := exists_fields_of_mem_records h
  have hl := (exists_of_mem_splitOn hm).1
  simp only [List.mem_append, List.mem_cons, not_or] at hl
  have hcut {b : UInt8} (hb : Plain b) {field : Bytes} (hf : b ∉ field) (room : Nat) :
      Char.ofNat b.toNat ∉ (lossy (field.take room)).toList :=
    fun hm => hf (List.mem_of_mem_take (hb.mem_of_mem_lossy hm))
  exact {
    file := ⟨hcut plain_space hp 1023, hcut plain_newline hl.1 1023⟩
    scope := ⟨hcut plain_space hh 255, hcut plain_newline hl.2.2.1 255⟩
    context := hcut plain_newline hl.2.2.2.2.2.2 1023 }

end Listing

-- ---------------------------------------------------------------------------
-- Lines of a text
-- ---------------------------------------------------------------------------

/-- The lines of a text, each without the newline that ends it, and what stands after the last of
them. -/
def Text.lines (text : String) : List String × String :=
  let pieces := (text.toList.splitOn '\n').map String.ofList
  (pieces.dropLast, pieces.getLast?.getD "")

namespace Text

theorem splitOn_join {rows : List String} (h : ∀ row ∈ rows, '\n' ∉ row.toList) :
    (String.join (rows.map (· ++ "\n"))).toList.splitOn '\n' =
      rows.map String.toList ++ [[]] := by
  induction rows with
  | nil => rfl
  | cons row rest ih =>
    obtain ⟨hrow, hrest⟩ := List.forall_mem_cons.mp h
    have hs : (String.join ((row :: rest).map (· ++ "\n"))).toList =
        row.toList ++ '\n' :: (String.join (rest.map (· ++ "\n"))).toList := by
      simp
    rw [hs, List.splitOn_append_cons_self_of_not_mem hrow, ih hrest, List.map_cons,
      List.cons_append]

theorem lines_join {rows : List String} (h : ∀ row ∈ rows, '\n' ∉ row.toList) :
    lines (String.join (rows.map (· ++ "\n"))) = (rows, "") := by
  have ht : String.ofList ∘ String.toList = id := funext fun _ => String.ofList_toList
  simp only [lines, splitOn_join h, List.map_append, List.map_map, ht, List.map_id,
    List.map_cons, List.map_nil, List.dropLast_concat, List.getLast?_concat]
  rfl

theorem not_mem_blanks {c : Char} (hc : c ≠ ' ') (n : Nat) : c ∉ (blanks n).toList := by
  simp [blanks, hc]

theorem not_mem_toString {c : Char} (hc : c.isDigit = false) (n : Nat) :
    c ∉ (toString n).toList := by
  rw [Nat.toString_eq_ofList_toDigits, String.toList_ofList]
  intro h
  have hd := Nat.isDigit_of_mem_toDigits (by decide) (by decide) h
  simp [hc] at hd

end Text

theorem Record.Presentable.newline_not_mem_row {r : Record} (h : r.Presentable) :
    '\n' ∉ r.row.toList := by
  have hn : '\n' ∉ (toString r.line).toList := Text.not_mem_toString rfl r.line.toNat
  simp [Record.row, Text.alignLeft, h.file.2, h.scope.2, h.context, hn, Text.not_mem_blanks]

def Terminal.numberedRow (number : Nat) (r : Record) : String :=
  Text.alignRight 3 (toString number) ++ "  " ++ r.row

theorem Terminal.lines_render_choices {records : List Record}
    (h : ∀ r ∈ records, r.Presentable) :
    Text.lines (render (.choices records)) =
      (records.zipIdx.map fun (r, i) => numberedRow (i + 1) r, "") := by
  have hrows : rows records =
      (records.zipIdx.map fun (r, i) => numberedRow (i + 1) r).map (· ++ "\n") := by
    simp [rows, numberedRow, Function.comp_def]
  rw [render, hrows]
  refine Text.lines_join fun row hm => ?_
  obtain ⟨⟨r, i⟩, hr, rfl⟩ := List.mem_map.mp hm
  have hrow := (h r (List.fst_mem_of_mem_zipIdx hr)).newline_not_mem_row
  have hgap : '\n' ∉ "  ".toList := by decide
  simp only [numberedRow, Text.alignRight, String.toList_append, List.mem_append, not_or]
  exact ⟨⟨⟨Text.not_mem_blanks (by decide) _, Text.not_mem_toString rfl _⟩, hgap⟩, hrow⟩

end Xref
