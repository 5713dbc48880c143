import Mathlib.Data.List.Basic
import Xref.Proofs.SingleQuery
import Xref.Proofs.Words

/-!
# Rows read back

A row keeps all of its record. Nothing marks where a column ends, and the fields may hold whatever
a row is made of: brackets, digits, and in the context spaces too. But no space stands in a file or
a scope, so the first one ends it, and its length tells how many more fill its column.

What a query prints, or a session lists, is therefore printed for no other records. Nothing is said
of a record with a space in its file or its scope: its row may be that of another record.
-/

namespace Xref

-- ---------------------------------------------------------------------------
-- Columns
-- ---------------------------------------------------------------------------

namespace Text

variable {mark : Char} {width : Nat} {field rest cs : List Char}

def cut? (mark : Char) : List Char → Option (List Char × List Char)
  | [] => none
  | c :: cs =>
    if c = mark then some ([], cs) else (cut? mark cs).map fun (field, rest) => (c :: field, rest)

/-- The text of a column that one more space follows, and what stands after that. -/
def column? (width : Nat) (cs : List Char) : Option (List Char × List Char) := do
  let (field, rest) ← cut? ' ' cs
  let rest ← (List.replicate (width - field.length) ' ').isPrefixOf? rest
  some (field, rest)

theorem cut?_eq_some_iff :
    cut? mark cs = some (field, rest) ↔ mark ∉ field ∧ cs = field ++ mark :: rest := by
  induction cs generalizing field with
  | nil => simp [cut?]
  | cons c cs ih =>
    by_cases hc : c = mark
    · cases field <;> simp +contextual [cut?, hc, eq_comm]
    · cases field with
      | nil => simp [cut?, hc]
      | cons d field =>
        have hd : c = d → mark ≠ d := fun he hm => hc (he.trans hm.symm)
        have hcut : cut? mark (c :: cs) = some (d :: field, rest) ↔
            cut? mark cs = some (field, rest) ∧ c = d := by
          simp [cut?, hc]
        rw [hcut, ih, List.mem_cons, List.cons_append, List.cons.injEq]
        tauto

/-- The space after the column stands here before those that fill it, which makes no difference. -/
theorem column?_eq_some_iff :
    column? width cs = some (field, rest) ↔
      ' ' ∉ field ∧ cs = field ++ ' ' :: (List.replicate (width - field.length) ' ' ++ rest) := by
  simp [column?, Option.bind_eq_some_iff, cut?_eq_some_iff, and_assoc]

theorem toList_alignLeft (width : Nat) (text : String) (cs : List Char) :
    (alignLeft width text).toList ++ ' ' :: cs =
      text.toList ++ ' ' :: (List.replicate (width - text.toList.length) ' ' ++ cs) := by
  have hs (n : Nat) : List.replicate n ' ' ++ ' ' :: cs = ' ' :: (List.replicate n ' ' ++ cs) := by
    rw [← List.cons_append, ← List.replicate_succ, List.replicate_succ', List.append_assoc,
      List.singleton_append]
  simp [alignLeft, blanks, hs, String.length_toList]

end Text

-- ---------------------------------------------------------------------------
-- Rows
-- ---------------------------------------------------------------------------

/-- No space stands where it would be taken for the end of a column. -/
structure Record.Unspaced (r : Record) : Prop where
  file : ' ' ∉ r.file.toList
  scope : ' ' ∉ r.scope.toList

theorem Record.Presentable.unspaced {r : Record} (h : r.Presentable) : r.Unspaced :=
  ⟨h.file.1, h.scope.1⟩

namespace Record

variable {row : String} {r s : Record} {digits : List Char} {line : UInt32}

def lineOf? (digits : List Char) : Option UInt32 :=
  let line := UInt32.ofNat (Numeral.value digits)
  if (toString line).toList = digits then some line else none

def ofRow? (row : String) : Option Record := do
  let (file, rest) ← Text.column? 32 row.toList
  let rest ← "[".toList.isPrefixOf? rest
  let (digits, rest) ← Text.cut? ']' rest
  let line ← lineOf? digits
  let rest ← " ".toList.isPrefixOf? rest
  let (scope, context) ← Text.column? 24 rest
  some ⟨String.ofList file, String.ofList scope, line, String.ofList context⟩

theorem lineOf?_eq_some_iff : lineOf? digits = some line ↔ digits = (toString line).toList := by
  constructor
  · intro h
    simp only [lineOf?, Option.ite_none_right_eq_some, Option.some.injEq] at h
    obtain ⟨hd, rfl⟩ := h
    exact hd.symm
  · rintro rfl
    have hv : Numeral.value (toString line).toList = line.toNat := Numeral.value_padded 0 line.toNat
    simp [lineOf?, hv]

theorem toList_row (r : Record) :
    r.row.toList = r.file.toList ++ ' ' :: (List.replicate (32 - r.file.toList.length) ' ' ++
      '[' :: ((toString r.line).toList ++ ']' :: ' ' :: (r.scope.toList ++
        ' ' :: (List.replicate (24 - r.scope.toList.length) ' ' ++ r.context.toList)))) := by
  rw [← Text.toList_alignLeft, ← Text.toList_alignLeft]
  simp [Record.row]

theorem ofRow?_eq_some_iff : ofRow? row = some r ↔ r.Unspaced ∧ r.row = row := by
  simp only [ofRow?, Option.bind_eq_bind, Option.bind_eq_some_iff, Prod.exists,
    Text.column?_eq_some_iff, Text.cut?_eq_some_iff, lineOf?_eq_some_iff,
    List.isPrefixOf?_eq_some_iff_append_eq]
  constructor
  · rintro ⟨file, _, ⟨hf, hrow⟩, _, rfl, _, _, ⟨-, rfl⟩, line, rfl, _, rfl, scope, context,
      ⟨hs, rfl⟩, hr⟩
    obtain rfl := Option.some.inj hr
    refine ⟨⟨by simpa using hf, by simpa using hs⟩, ?_⟩
    rw [← String.toList_inj, toList_row, hrow]
    simp
  · rintro ⟨hr, rfl⟩
    have hn : ']' ∉ (toString r.line).toList := Text.not_mem_toString rfl r.line.toNat
    refine ⟨_, _, ⟨hr.file, toList_row r⟩, _, rfl, _, _, ⟨hn, rfl⟩, r.line, rfl, _, rfl, _, _,
      ⟨hr.scope, rfl⟩, ?_⟩
    simp

theorem Unspaced.ofRow?_row (h : r.Unspaced) : ofRow? r.row = some r :=
  ofRow?_eq_some_iff.mpr ⟨h, rfl⟩

theorem Unspaced.eq_of_row (hr : r.Unspaced) (hs : s.Unspaced) (h : r.row = s.row) : r = s := by
  have he : some r = some s := by rw [← hr.ofRow?_row, h, hs.ofRow?_row]
  exact Option.some.inj he

end Record

-- ---------------------------------------------------------------------------
-- What is printed
-- ---------------------------------------------------------------------------

open CommandLine (present printedRows)
open Terminal (numberedRow)

variable {rs : List Record}

/-- The line that says that there are no records is the row of none. -/
theorem Record.filterMap_printedRows (h : ∀ r ∈ rs, r.Unspaced) :
    (printedRows rs).filterMap ofRow? = rs := by
  unfold printedRows
  split
  · next hn =>
    subst hn
    decide +kernel
  · rw [List.filterMap_map, List.filterMap_eq_map_iff_forall_eq_some (g := id) |>.mpr, List.map_id]
    exact fun r hr => (h r hr).ofRow?_row

def Terminal.ofNumberedRow? (row : String) : Option (Nat × Record) := do
  let (digits, rest) ← Text.cut? ' ' (row.toList.dropWhile Text.isBlank)
  let rest ← " ".toList.isPrefixOf? rest
  let record ← Record.ofRow? (String.ofList rest)
  some (Numeral.value digits, record)

theorem Terminal.ofNumberedRow?_numberedRow (n : Nat) {r : Record} (h : r.Unspaced) :
    ofNumberedRow? (numberedRow n r) = some (n, r) := by
  have hcs : (numberedRow n r).toList = List.replicate (3 - (toString n).length) ' ' ++
      ((toString n).toList ++ ' ' :: ' ' :: r.row.toList) := by
    simp [numberedRow, Text.alignRight, Text.blanks]
  have hblanks : Text.Blanks (List.replicate (3 - (toString n).length) ' ') := by
    intro c hc
    rw [List.eq_of_mem_replicate hc]
    rfl
  have hdrop : (numberedRow n r).toList.dropWhile Text.isBlank =
      (toString n).toList ++ ' ' :: ' ' :: r.row.toList := by
    obtain ⟨c, hc, hn⟩ := (Numeral.spells_toString n).isWord.tight.first
    rw [hcs]
    exact Text.dropWhile_blanks_append hblanks ⟨c, by rw [List.head?_append, hc]; rfl, hn⟩
  have hcut : Text.cut? ' ' ((toString n).toList ++ ' ' :: ' ' :: r.row.toList) =
      some ((toString n).toList, ' ' :: r.row.toList) :=
    Text.cut?_eq_some_iff.mpr ⟨Text.not_mem_toString rfl n, rfl⟩
  have hgap : " ".toList.isPrefixOf? (' ' :: r.row.toList) = some r.row.toList := by simp
  have hv : Numeral.value (toString n).toList = n := Numeral.value_padded 0 n
  simp only [ofNumberedRow?, hdrop, hcut, hgap, hv, String.ofList_toList, h.ofRow?_row,
    Option.bind_eq_bind, Option.bind_some]

theorem Terminal.filterMap_numberedRow (h : ∀ r ∈ rs, r.Unspaced) :
    (rs.zipIdx.map fun (r, i) => numberedRow (i + 1) r).filterMap ofNumberedRow? =
      rs.zipIdx.map fun (r, i) => (i + 1, r) := by
  rw [List.filterMap_map, List.filterMap_eq_map_iff_forall_eq_some]
  rintro ⟨r, i⟩ hr
  exact ofNumberedRow?_numberedRow (i + 1) (h r (List.fst_mem_of_mem_zipIdx hr))

namespace Record

/-- Two records with one row are the same record, unless a space stands in a file or a scope. A row
is read back as the four fields of its record, however long they are and whatever else stands in
them, and no other text is read. So the records of an output can be had back from the rows that a
query prints for them, and from the list of a session each with the number that selects it. -/
theorem row_identifies :
    (∀ r s : Record, r.Unspaced → s.Unspaced → r.row = s.row → r = s) ∧
    (∀ (row : String) (r : Record), ofRow? row = some r ↔ r.Unspaced ∧ r.row = row) ∧
    ∀ output : Bytes,
      let rs := Listing.records output
      (∀ r ∈ rs, r.Unspaced) ∧
      (Text.lines (present false rs)).1.filterMap ofRow? = rs ∧
      (Text.lines (Terminal.render (.choices rs))).1.filterMap Terminal.ofNumberedRow? =
        rs.zipIdx.map fun (r, i) => (i + 1, r) := by
  refine ⟨fun r s hr hs => hr.eq_of_row hs, fun row r => ofRow?_eq_some_iff, ?_⟩
  intro output rs
  have hp : ∀ r ∈ rs, r.Presentable := fun r => Listing.presentable_of_mem_records
  have hu : ∀ r ∈ rs, r.Unspaced := fun r hr => (hp r hr).unspaced
  refine ⟨hu, ?_, ?_⟩
  · rw [CommandLine.lines_present hp]
    exact filterMap_printedRows hu
  · rw [Terminal.lines_render_choices hp]
    exact Terminal.filterMap_numberedRow hu

end Record

namespace Sample

def bracketed : Bytes :=
  Text.Utf8.encode
    "lib[32]/generated/parser_tables.c  7 ] x [8] y\nlib[32]/generated/parser_tables.c ] 7 x [8] y"

end Sample

namespace Record

theorem row_identifies_brackets :
    let bare : Record := ⟨"lib[32]/generated/parser_tables.c", "", 7, "] x [8] y"⟩
    let full : Record := ⟨"lib[32]/generated/parser_tables.c", "]", 7, "x [8] y"⟩
    bare.row ≠ full.row ∧ bare.Unspaced ∧ ofRow? bare.row = some bare ∧
      ∃ r ∈ Listing.records Sample.bracketed, r.Unspaced ∧ full.Unspaced ∧ r.row = full.row ∧
        r = full := by
  intro bare full
  have hb : bare.Unspaced := by constructor <;> decide +kernel
  have hf : full.Unspaced := by constructor <;> decide +kernel
  have hrow : bare.row ≠ full.row := by decide +kernel
  have hm : ∃ r ∈ Listing.records Sample.bracketed, r.row = full.row := by decide +kernel
  obtain ⟨hinj, hread, hall⟩ := row_identifies
  obtain ⟨r, hr, he⟩ := hm
  have hu : r.Unspaced := (hall Sample.bracketed).1 r hr
  exact ⟨hrow, hb, (hread _ _).mpr ⟨hb, rfl⟩, r, hr, hu, hf, he, hinj r full hu hf he⟩

/-- The spaces that fill a column cannot be told from spaces of the file. -/
example : row ⟨"a.c", "f", 3, "run();"⟩ = row ⟨Text.alignLeft 32 "a.c", "f", 3, "run();"⟩ := by
  decide +kernel

end Record
end Xref
