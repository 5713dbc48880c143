import Xref.Listing

/-!
# The grammar of query output

The output is split at its newlines, and each line is a record of its own if it has three spaces.
This says what the single pass over the bytes finds, without its states: no line has a part in
what another one yields.
-/

namespace Xref.Listing

open Text.Utf8 (lossy)

def cut (bytes : Bytes) : Bytes × Bytes :=
  (bytes.takeWhile (· ≠ space), (bytes.dropWhile (· ≠ space)).tail)

/-- The record of a line: three fields that end at a space, and the rest. Each has its room. -/
def ofLine? (line : Bytes) : Option Record :=
  let (path, line₁) := cut line
  let (holder, line₂) := cut line₁
  let (digits, rest) := cut line₂
  if 3 ≤ line.count space then
    some {
      file := lossy (path.take 1023)
      scope := lossy (holder.take 255)
      line := UInt32.ofNat (max 1 (lineNumber (digits.take 7)))
      context := lossy (rest.take 1023) }
  else none

theorem cut_append {bytes : Bytes} (h : space ∉ bytes) (rest : Bytes) :
    cut (bytes ++ space :: rest) = (bytes, rest) := by
  have hp : ∀ b ∈ bytes, decide (b ≠ space) = true := fun b hb =>
    decide_eq_true fun hs => h (hs ▸ hb)
  rw [cut, List.takeWhile_append_of_pos hp, List.dropWhile_append_of_pos hp]
  simp

theorem ofLine?_eq_none_iff (line : Bytes) : ofLine? line = none ↔ line.count space < 3 := by
  simp [ofLine?]

theorem ofLine?_fields {path holder digits : Bytes} (rest : Bytes) (hp : space ∉ path)
    (hh : space ∉ holder) (hd : space ∉ digits) :
    ofLine? (path ++ space :: (holder ++ space :: (digits ++ space :: rest))) =
      some {
        file := lossy (path.take 1023)
        scope := lossy (holder.take 255)
        line := UInt32.ofNat (max 1 (lineNumber (digits.take 7)))
        context := lossy (rest.take 1023) } := by
  simp only [ofLine?, cut_append hp, cut_append hh, cut_append hd]
  rw [if_pos]
  simp only [List.count_append, List.count_cons_self]
  omega

theorem exists_fields {line : Bytes} (h : 3 ≤ line.count space) :
    ∃ path holder digits rest,
      line = path ++ space :: (holder ++ space :: (digits ++ space :: rest)) ∧
        space ∉ path ∧ space ∉ holder ∧ space ∉ digits := by
  have next {bytes : Bytes} {n : Nat} (h : n + 1 ≤ bytes.count space) :
      ∃ field rest, bytes = field ++ space :: rest ∧ space ∉ field ∧ n ≤ rest.count space := by
    have hm : space ∈ bytes := List.count_pos_iff.mp (by omega)
    obtain ⟨field, rest, rfl, hf⟩ := List.eq_append_cons_of_mem hm
    refine ⟨field, rest, rfl, hf, ?_⟩
    simp only [List.count_append, List.count_eq_zero_of_not_mem hf, List.count_cons_self] at h
    omega
  obtain ⟨path, line₁, rfl, hp, h₁⟩ := next h
  obtain ⟨holder, line₂, rfl, hh, h₂⟩ := next h₁
  obtain ⟨digits, rest, rfl, hd, -⟩ := next h₂
  exact ⟨path, holder, digits, rest, rfl, hp, hh, hd⟩

-- ---------------------------------------------------------------------------
-- One line in one pass
-- ---------------------------------------------------------------------------

theorem Field.bytes_foldl_push (bytes : Bytes) (room : Nat) (kept : Bytes) :
    (bytes.foldl Field.push ⟨room, kept⟩).bytes = kept.reverse ++ bytes.take room := by
  induction bytes generalizing room kept with
  | nil => simp [Field.bytes]
  | cons b rest ih =>
    cases room with
    | zero => simpa [Field.push] using ih 0 kept
    | succ room => simp [Field.push, ih]

namespace Line

variable {b : UInt8}

theorem push_file (h : b ≠ space) (f : Field) : (file f).push b = .file (f.push b) := by
  simp [push, h]

theorem push_scope (h : b ≠ space) (path : Bytes) (f : Field) :
    (scope path f).push b = .scope path (f.push b) := by
  simp [push, h]

theorem push_number (h : b ≠ space) (path holder : Bytes) (f : Field) :
    (number path holder f).push b = .number path holder (f.push b) := by
  simp [push, h]

theorem foldl_push_field (stage : Field → Line) {bytes : Bytes}
    (h : ∀ b ∈ bytes, ∀ f, (stage f).push b = stage (f.push b)) (f : Field) :
    bytes.foldl Line.push (stage f) = stage (bytes.foldl Field.push f) := by
  induction bytes generalizing f with
  | nil => rfl
  | cons b rest ih =>
    rw [List.foldl_cons, h b List.mem_cons_self, ih fun c hc => h c (List.mem_cons_of_mem _ hc)]
    rfl

def closed : Line → Nat
  | .file _ => 0
  | .scope .. => 1
  | .number .. => 2
  | .context .. => 3

theorem closed_push (line : Line) (b : UInt8) :
    (line.push b).closed = min 3 (line.closed + if b = space then 1 else 0) := by
  by_cases hb : b = space <;> cases line <;> simp [push, closed, hb]

theorem closed_foldl (bytes : Bytes) (line : Line) :
    (bytes.foldl Line.push line).closed = min 3 (line.closed + bytes.count space) := by
  induction bytes generalizing line with
  | nil => cases line <;> rfl
  | cons b rest ih =>
    simp only [List.foldl_cons, ih, closed_push, List.count_cons, beq_iff_eq]
    omega

theorem record?_eq_none_iff (line : Line) : line.record? = none ↔ line.closed < 3 := by
  cases line <;> simp [record?, closed]

/-- Reading a line byte by byte gives what its three cuts give. -/
theorem record?_foldl (line : Bytes) : (line.foldl Line.push .start).record? = ofLine? line := by
  by_cases h : 3 ≤ line.count space
  · obtain ⟨path, holder, digits, rest, rfl, hp, hh, hd⟩ := exists_fields h
    have hfile := foldl_push_field .file fun b hb => push_file fun hs => hp (hs ▸ hb)
    have hscope (path) := foldl_push_field (.scope path) fun b hb =>
      push_scope (fun hs => hh (hs ▸ hb)) path
    have hnumber (path holder) := foldl_push_field (.number path holder) fun b hb =>
      push_number (fun hs => hd (hs ▸ hb)) path holder
    have hcontext (path holder digits) := foldl_push_field (.context path holder digits)
      fun b (_ : b ∈ rest) f => rfl
    rw [ofLine?_fields rest hp hh hd]
    simp only [start, List.foldl_append, List.foldl_cons, hfile, hscope, hnumber, hcontext, push,
      if_true, record?, Field.bytes_foldl_push, List.reverse_nil, List.nil_append]
    rfl
  · rw [(ofLine?_eq_none_iff line).mpr (by omega), record?_eq_none_iff, closed_foldl]
    simp only [start, closed]
    omega

end Line

-- ---------------------------------------------------------------------------
-- All lines
-- ---------------------------------------------------------------------------

/-- The open line goes on with the first piece; each further piece starts afresh. -/
theorem recordsFrom_splitOn (bytes : Bytes) (line : Line) :
    ∃ first rest, bytes.splitOn newline = first :: rest ∧
      recordsFrom line [] bytes =
        (first.foldl Line.push line).record?.toList ++ rest.filterMap ofLine? := by
  induction bytes generalizing line with
  | nil =>
    refine ⟨[], [], rfl, ?_⟩
    cases h : line.record? <;> simp [recordsFrom, h]
  | cons b bytes ih =>
    rw [List.splitOn_cons_eq_if_modifyHead]
    by_cases hb : b = newline
    · obtain ⟨first, rest, hs, hr⟩ := ih .start
      refine ⟨[], bytes.splitOn newline, by simp [hb], ?_⟩
      rw [recordsFrom, if_pos hb, recordsFrom_found, hr, Line.record?_foldl, hs]
      cases hl : line.record? <;> cases hf : ofLine? first <;> simp [hl, hf]
    · obtain ⟨first, rest, hs, hr⟩ := ih (line.push b)
      refine ⟨b :: first, rest, by simp [hb, hs], ?_⟩
      rw [recordsFrom, if_neg hb, hr, List.foldl_cons]

theorem records_eq_filterMap (output : Bytes) :
    records output = (output.splitOn newline).filterMap ofLine? := by
  obtain ⟨first, rest, hs, hr⟩ := recordsFrom_splitOn output .start
  rw [records, hr, hs, Line.record?_foldl]
  cases h : ofLine? first <;> simp [h]

theorem exists_fields_of_mem_records {output : Bytes} {r : Record} (h : r ∈ records output) :
    ∃ path holder digits rest,
      path ++ space :: (holder ++ space :: (digits ++ space :: rest)) ∈ output.splitOn newline ∧
        space ∉ path ∧ space ∉ holder ∧ space ∉ digits ∧
        r = {
          file := lossy (path.take 1023)
          scope := lossy (holder.take 255)
          line := UInt32.ofNat (max 1 (lineNumber (digits.take 7)))
          context := lossy (rest.take 1023) } := by
  rw [records_eq_filterMap] at h
  obtain ⟨line, hm, hr⟩ := List.mem_filterMap.mp h
  have hthree : 3 ≤ line.count space := by
    refine Nat.not_lt.mp fun hlt => ?_
    rw [(ofLine?_eq_none_iff line).mpr hlt] at hr
    cases hr
  obtain ⟨path, holder, digits, rest, rfl, hp, hh, hd⟩ := exists_fields hthree
  rw [ofLine?_fields rest hp hh hd] at hr
  exact ⟨path, holder, digits, rest, hm, hp, hh, hd, (Option.some.inj hr).symm⟩

theorem mem_records_of_fields (path holder digits rest : Bytes) (hp : space ∉ path)
    (hh : space ∉ holder) (hd : space ∉ digits)
    (hn : newline ∉ path ++ space :: (holder ++ space :: (digits ++ space :: rest))) :
    { file := lossy (path.take 1023)
      scope := lossy (holder.take 255)
      line := UInt32.ofNat (max 1 (lineNumber (digits.take 7)))
      context := lossy (rest.take 1023) } ∈
      records (path ++ space :: (holder ++ space :: (digits ++ space :: rest))) := by
  rw [records_eq_filterMap, List.splitOn_eq_singleton hn, List.filterMap_cons,
    ofLine?_fields rest hp hh hd]
  exact List.mem_cons_self

theorem records_append_newline (first second : Bytes) :
    records (first ++ newline :: second) = records first ++ records second := by
  rw [records_eq_filterMap, List.splitOn_append_cons_self, List.filterMap_append,
    ← records_eq_filterMap, ← records_eq_filterMap]

theorem toNat_lineNumber (digits : Bytes) :
    (UInt32.ofNat (max 1 (lineNumber digits))).toNat = max 1 (lineNumber digits) := by
  have h : lineNumber digits ≤ UInt32.size - 1 := Numeral.leading_le lineCap digits
  rw [UInt32.toNat_ofNat']
  refine Nat.mod_eq_of_lt ?_
  have hs : UInt32.size = 2 ^ 32 := rfl
  omega

/-- The records of an output are those of its lines. A line has one exactly if it has three spaces,
and then of each field what the field has room for. -/
theorem records_grammar (output : Bytes) :
    records output = (output.splitOn newline).filterMap ofLine? ∧
    (∀ line, ofLine? line = none ↔ line.count space < 3) ∧
    (∀ path holder digits rest : Bytes, space ∉ path → space ∉ holder → space ∉ digits →
      ∃ r, ofLine? (path ++ space :: (holder ++ space :: (digits ++ space :: rest))) = some r ∧
        r.file = lossy (path.take 1023) ∧ r.scope = lossy (holder.take 255) ∧
        r.line.toNat = max 1 (lineNumber (digits.take 7)) ∧
        r.context = lossy (rest.take 1023)) ∧
    ∀ first second : Bytes,
      records (first ++ newline :: second) = records first ++ records second := by
  refine ⟨records_eq_filterMap output, ofLine?_eq_none_iff, ?_, records_append_newline⟩
  intro path holder digits rest hp hh hd
  exact ⟨_, ofLine?_fields rest hp hh hd, rfl, rfl, toNat_lineNumber _, rfl⟩

theorem records_grammar_long_number :
    ∃ r, ofLine? (Text.Utf8.encode "a.c f 001234567 x = y") = some r ∧ r.line.toNat = 12345 := by
  obtain ⟨r, hr, -, -, hn, -⟩ := (records_grammar []).2.2.1 (Text.Utf8.encode "a.c")
    (Text.Utf8.encode "f") (Text.Utf8.encode "001234567") (Text.Utf8.encode "x = y")
    (by decide +kernel) (by decide +kernel) (by decide +kernel)
  exact ⟨r, hr, hn⟩

end Xref.Listing
