import Mathlib.Data.List.Induction
import Xref.Proofs.Provenance
import Xref.Proofs.RoundTrip
import Xref.Proofs.Rows

/-!
# The line of a record

The room of a number field is seven bytes, which is less than it takes to reach the greatest line
number that a record holds. The number of a record is therefore the one that its field starts with,
raised to one if it is less, and every line that a host is sent to is a line of a file. There are no
more records than lines of output.

Nothing is said here of whether a file has that line.
-/

namespace Xref

-- ---------------------------------------------------------------------------
-- Short numbers
-- ---------------------------------------------------------------------------

namespace Numeral

theorem isDigitByte_of_mem_leadingDigits {bytes : Bytes} {b : UInt8}
    (h : b ∈ leadingDigits bytes) : isDigitByte b = true :=
  List.mem_takeWhile_imp h

theorem length_dropPlus_le (bytes : Bytes) : (dropPlus bytes).length ≤ bytes.length := by
  unfold dropPlus
  split
  · exact Nat.le_succ _
  · exact Nat.le_refl _

theorem length_leadingDigits_le (bytes : Bytes) : (leadingDigits bytes).length ≤ bytes.length :=
  calc (leadingDigits bytes).length
    _ ≤ (dropPlus (bytes.dropWhile isBlankByte)).length := (List.takeWhile_sublist _).length_le
    _ ≤ (bytes.dropWhile isBlankByte).length := length_dropPlus_le _
    _ ≤ bytes.length := (List.dropWhile_sublist _).length_le

theorem ofDigits_lt {digits : Bytes} (h : ∀ b ∈ digits, isDigitByte b = true) :
    ofDigits digits < 10 ^ digits.length := by
  induction digits using List.reverseRecOn with
  | nil => decide
  | append_singleton digits b ih =>
    obtain ⟨hdigits, hb⟩ := List.forall_mem_append.mp h
    have hnine : b.toNat ≤ 0x39 := (isDigitByte_iff.mp (hb b List.mem_cons_self)).2
    have hlt := ih hdigits
    rw [ofDigits_concat, List.length_append, List.length_singleton, Nat.pow_succ]
    omega

theorem ofDigits_leadingDigits_lt (bytes : Bytes) :
    ofDigits (leadingDigits bytes) < 10 ^ bytes.length :=
  Nat.lt_of_lt_of_le (ofDigits_lt fun _ => isDigitByte_of_mem_leadingDigits)
    (Nat.pow_le_pow_right (by decide) (length_leadingDigits_le bytes))

end Numeral

-- ---------------------------------------------------------------------------
-- Records
-- ---------------------------------------------------------------------------

open Numeral (ofDigits leadingDigits)
open Text.Utf8 (encode)

structure Record.Numbered (r : Record) : Prop where
  one_le : 1 ≤ r.line.toNat
  le : r.line.toNat ≤ 9999999

namespace Listing

theorem lineNumber_take (field : Bytes) :
    lineNumber (field.take numberRoom) = ofDigits (leadingDigits (field.take numberRoom)) ∧
      ofDigits (leadingDigits (field.take numberRoom)) ≤ 9999999 := by
  have hlength : (field.take numberRoom).length ≤ 7 := List.length_take_le _ _
  have hlt := Numeral.ofDigits_leadingDigits_lt (field.take numberRoom)
  have hpow : 10 ^ (field.take numberRoom).length ≤ 10 ^ 7 :=
    Nat.pow_le_pow_right (by decide) hlength
  have hle : ofDigits (leadingDigits (field.take numberRoom)) ≤ 9999999 := by omega
  have hcap : 9999999 ≤ lineCap := by decide
  refine ⟨?_, hle⟩
  rw [lineNumber, Numeral.leading_eq]
  exact Nat.min_eq_right (Nat.le_trans hle hcap)

theorem line_of_mem_records {output : Bytes} {r : Record} (h : r ∈ records output) :
    ∃ path holder digits rest,
      path ++ space :: (holder ++ space :: (digits ++ space :: rest)) ∈ output.splitOn newline ∧
        space ∉ path ∧ space ∉ holder ∧ space ∉ digits ∧
        r.line.toNat = max 1 (ofDigits (leadingDigits (digits.take numberRoom))) := by
  obtain ⟨path, holder, digits, rest, hm, hp, hh, hd, rfl⟩ := exists_fields_of_mem_records h
  refine ⟨path, holder, digits, rest, hm, hp, hh, hd, ?_⟩
  rw [← (lineNumber_take digits).1]
  exact toNat_lineNumber _

theorem numbered_of_mem_records {output : Bytes} {r : Record} (h : r ∈ records output) :
    r.Numbered := by
  obtain ⟨-, -, digits, -, -, -, -, -, hline⟩ := line_of_mem_records h
  have hle := (lineNumber_take digits).2
  constructor
  · rw [hline]
    exact Nat.le_max_left _ _
  · rw [hline]
    exact Nat.max_le.mpr ⟨by decide, hle⟩

theorem length_splitOn (output : Bytes) :
    (output.splitOn newline).length = output.count newline + 1 := by
  induction output with
  | nil => rfl
  | cons b rest ih =>
    rw [List.splitOn_cons_eq_if_modifyHead, List.count_cons]
    split
    · simp [ih]
    · simp [ih]

theorem length_records_le (output : Bytes) :
    (records output).length ≤ output.count newline + 1 := by
  rw [records_eq_filterMap, ← length_splitOn]
  exact List.length_filterMap_le _ _

end Listing

-- ---------------------------------------------------------------------------
-- Jumps
-- ---------------------------------------------------------------------------

namespace Navigator

def Numbered (nav : Navigator) : Prop :=
  ∀ list, nav.choices = some list → ∀ r ∈ list.records, r.Numbered

theorem Initial.numbered {nav : Navigator} (h : Initial nav) : nav.Numbered := by
  intro list hl
  rw [h.choices_eq_none] at hl
  cases hl

theorem Numbered.react {nav : Navigator} (h : nav.Numbered) (step : Step) :
    (nav.react step).navigator.Numbered := by
  intro list hl
  rw [react_choices] at hl
  cases he : ((nav.react step).requests.map step.exchange).getLast? with
  | none =>
    rw [he] at hl
    exact h list hl
  | some e =>
    rw [he] at hl
    obtain ⟨output, -, -, rfl⟩ := Exchange.choices_eq_some.mp hl
    exact fun r => Listing.numbered_of_mem_records

theorem opened_of_react {nav : Navigator} {step : Step} {path : String} {line : UInt32}
    (h : .opened path line ∈ (nav.react step).events) :
    ∃ r : Record, r.line = line ∧
      ((∃ output, r ∈ Listing.records output) ∨ ∃ list, nav.choices = some list ∧
        r ∈ list.records) := by
  have hresolve {directory : String} {notices : List Event}
      (hr : nav.resolve step.world = some (directory, notices)) : .opened path line ∉ notices := by
    obtain ⟨-, rfl⟩ | ⟨-, rfl, -⟩ := resolve_eq_some.mp hr
    · exact List.not_mem_nil
    · simp [announcement]
  have hreport (result : Except NavigationError Unit) : .opened path line ∉ report result := by
    cases result <;> simp [report]
  have hjump {nav : Navigator} {host : Host} {directory : String} {r : Record}
      (h : .opened path line ∈ (nav.jump host directory r).2) : r.line = line := by
    obtain ⟨text, ht⟩ := nav.jump_events host directory r
    have h : path = Path.join directory r.file ∧ line = r.line := by simpa [ht] using h
    exact h.2.symm
  obtain ⟨r, hx, hreact⟩ := nav.react_exit step
  rw [hreact] at h
  have h := (List.mem_append.mp h).resolve_right (hreport _)
  cases hx with
  | unsupported | unlocated | outOfRange | noMark | refused => cases h
  | blank _ _ hr => exact absurd h (hresolve hr)
  | unanswered ha | unmatched ha => exact absurd h (hresolve ha.resolved)
  | @jumped _ _ output record ha _ hl =>
    have h := (List.mem_append.mp h).resolve_left (hresolve ha.resolved)
    exact ⟨record, hjump h, .inl ⟨output, by simp [hl]⟩⟩
  | listed ha =>
    have h := (List.mem_append.mp h).resolve_left (hresolve ha.resolved)
    simp at h
  | selected _ hn hr => exact ⟨_, hjump h, .inr ⟨_, hn, List.mem_of_getElem? hr⟩⟩
  | popped | accepted => simp [announcement] at h

theorem opened_of_told {start : Navigator} (hs : Initial start) {steps : List Step}
    {path : String} {line : UInt32} (h : .opened path line ∈ start.told steps) :
    1 ≤ line.toNat ∧ line.toNat ≤ 9999999 := by
  obtain ⟨⟨nav, step⟩, hm, he⟩ := List.mem_flatMap.mp h
  have hmet : ∀ entry ∈ start.met steps, entry.1.Numbered ∧ entry.2 ∈ steps :=
    met_keeps hs.numbered fun nav step _ hn => hn.react step
  obtain ⟨r, rfl, ⟨output, hr⟩ | ⟨list, hl, hr⟩⟩ := opened_of_react he
  · exact ⟨(Listing.numbered_of_mem_records hr).one_le, (Listing.numbered_of_mem_records hr).le⟩
  · exact ⟨((hmet _ hm).1 list hl r hr).one_le, ((hmet _ hm).1 list hl r hr).le⟩

end Navigator

namespace Listing

/-- Of the characters that take the output apart none is left in a record where it would do so
again, and its line is the number that its field starts with: from one to the greatest that seven
digits write, and never what the cap would make of it. There is at most one record for each newline,
and one more. Whatever a run does, its host is sent to such a line. -/
theorem records_presentable (output : Bytes) :
    (∀ r ∈ records output, r.Presentable ∧ r.Numbered ∧
      ∃ path holder digits rest,
        path ++ space :: (holder ++ space :: (digits ++ space :: rest)) ∈ output.splitOn newline ∧
          space ∉ path ∧ space ∉ holder ∧ space ∉ digits ∧
          r.line.toNat = max 1 (ofDigits (leadingDigits (digits.take numberRoom)))) ∧
    (∀ field : Bytes,
      lineNumber (field.take numberRoom) = ofDigits (leadingDigits (field.take numberRoom)) ∧
        ofDigits (leadingDigits (field.take numberRoom)) ≤ 9999999) ∧
    (records output).length ≤ output.count newline + 1 ∧
    ∀ (start : Navigator) (steps : List Step) (path : String) (line : UInt32),
      Navigator.Initial start → .opened path line ∈ start.told steps →
        1 ≤ line.toNat ∧ line.toNat ≤ 9999999 := by
  refine ⟨fun r hr => ?_, lineNumber_take, length_records_le output, ?_⟩
  · exact ⟨presentable_of_mem_records hr, numbered_of_mem_records hr, line_of_mem_records hr⟩
  · intro start steps path line hs h
    exact Navigator.opened_of_told hs h

end Listing

def Sample.oddMatches : Bytes := 0xFF :: encode "a.c f 99999999 run();\nb.c g -5 run(x);"

namespace Listing

theorem records_presentable_odd :
    ∃ first second, records Sample.oddMatches = [first, second] ∧
      first.line = 9999999 ∧ first.Presentable ∧ first.Numbered ∧ second.Presentable ∧
      (records Sample.oddMatches).length ≤ Sample.oddMatches.count newline + 1 ∧
      .opened "/p/b.c" 1 ∈ Sample.fresh.told
        [Sample.step Sample.oddMatches (.find .callers none), Sample.step [] (.select 1)] ∧
      1 ≤ (1 : UInt32).toNat ∧ (1 : UInt32).toNat ≤ 9999999 := by
  have hr : records Sample.oddMatches =
      [⟨"\uFFFDa.c", "f", 9999999, "run();"⟩, ⟨"b.c", "g", 1, "run(x);"⟩] := by
    decide +kernel
  have ht : .opened "/p/b.c" 1 ∈ Sample.fresh.told
      [Sample.step Sample.oddMatches (.find .callers none), Sample.step [] (.select 1)] := by
    decide +kernel
  obtain ⟨hall, -, hlength, hlines⟩ := records_presentable Sample.oddMatches
  simp only [hr, List.forall_mem_cons] at hall
  obtain ⟨⟨hfirst, hnumber, -⟩, ⟨hsecond, -, -⟩, -⟩ := hall
  exact ⟨_, _, hr, rfl, hfirst, hnumber, hsecond, hlength, ht, hlines _ _ _ _ (.fresh {} 4) ht⟩

end Listing
end Xref
