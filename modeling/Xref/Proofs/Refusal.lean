import Xref.Proofs.Selection

/-!
# The number in a refusal

A line selects by the number in front of a row, which counts from one, and the list by an index,
which counts from zero. A number past the last row is refused by its index: the position told is the
one before the number that was typed, and for the first such number it is the position of a row that
is there. Nothing but the transcript changes.
-/

namespace Xref.Terminal

open Text.Utf8 (decode encode)

def refusalText (position count : Nat) : String :=
  "no result at position " ++ toString position ++ " (" ++ toString count ++ " results)"

theorem refusalText_inj {position other count : Nat} :
    refusalText position count = refusalText other count ↔ position = other := by
  unfold refusalText
  rw [String.append_left_inj, String.append_left_inj, String.append_left_inj,
    String.append_right_inj]
  refine ⟨fun h => ?_, fun h => congrArg toString h⟩
  have hspells := Numeral.spells_toString position
  rw [h] at hspells
  exact hspells.unique (Numeral.spells_toString other)

theorem getLast?_rows {records : List Record} {r : Record} (h : records.getLast? = some r) :
    (rows records).getLast? = some (numberedRow records.length r ++ "\n") := by
  have hpos : 0 < records.length := by
    obtain ⟨front, rfl⟩ := List.getLast?_eq_some_iff.mp h
    simp
  simp only [rows, List.getLast?_map, List.getLast?_zipIdx, h, Option.map_some, Nat.zero_add,
    Nat.sub_add_cancel hpos, numberedRow]

namespace Session

variable (w : World) (answers : Answers) {s : Session} {line : Bytes} {number : Nat}
  {text : String}

theorem next_refused (hs : Selects number text) (hd : decode (chomp line) = .ok text)
    (hn : s.navigator.offered < number) (hw : number < Numeral.wordLimit) :
    Continues line ∧ s.next w answers line =
      s.print (render (.status (refusalText (number - 1) s.navigator.offered)) ++ promptText) := by
  have hentry := ofLine_selects hs
  rw [if_pos ⟨Nat.zero_lt_of_lt hn, hw⟩] at hentry
  have hc : command? line = some (.select (number - 1)) :=
    command?_eq_some.mpr ⟨text, hd, hentry⟩
  refine ⟨continues_of_command? hc, next_outOfRange w answers hc ?_⟩
  cases hl : s.navigator.choices with
  | none => rfl
  | some list =>
    have hlength : list.records.length < number := by simpa [Navigator.offered, hl] using hn
    exact List.getElem?_eq_none (Nat.le_sub_one_of_lt hlength)

/-- A number past the rows of the list, or any number where there is no list. The one status that
answers it tells the position before that number, never the number itself; just after the last row
that is the position of the last row. The session goes on as it was. -/
theorem refusal_names_index (hs : Selects number text) (hd : decode (chomp line) = .ok text)
    (hn : s.navigator.offered < number) (hw : number < Numeral.wordLimit) :
    (∀ rest, follow w answers s (line :: rest) = follow w answers (s.next w answers line) rest) ∧
      s.next w answers line =
        s.print (render (.status (refusalText (number - 1) s.navigator.offered)) ++ promptText) ∧
      refusalText (number - 1) s.navigator.offered ≠ refusalText number s.navigator.offered ∧
      ∀ list r, s.navigator.choices = some list → list.records.getLast? = some r →
        number = list.records.length + 1 →
        (rows list.records).getLast? = some (numberedRow (number - 1) r ++ "\n") := by
  obtain ⟨hcontinues, hnext⟩ := next_refused w answers hs hd hn hw
  refine ⟨fun rest => follow_cons_continues w answers hcontinues s rest, hnext, ?_, ?_⟩
  · intro h
    have hsame : number - 1 = number := refusalText_inj.mp h
    omega
  · rintro list r - hlast rfl
    exact getLast?_rows hlast

end Session
end Xref.Terminal

def Xref.Sample.twoRows : Terminal.Session :=
  session.next world twice (Text.Utf8.encode "find-callers run\n")

namespace Xref.Terminal.Session

open Text.Utf8 (decode encode)

theorem selects_three : Selects 3 "select 3" :=
  @Selects.intro 3 [] [' '] ['3'] [] (by decide) (by decide) (by decide) ⟨0, .inl (by decide)⟩
    (by decide)

theorem refusal_names_index_past_rows :
    Sample.twoRows.navigator.offered = 2 ∧
      Sample.twoRows.next Sample.world Sample.twice (encode " select\t+09 \r\n") =
        Sample.twoRows.print ("[no result at position 8 (2 results)]\n" ++ promptText) ∧
      Sample.session.next Sample.world Sample.twice (encode "select 3") =
        Sample.session.print ("[no result at position 2 (0 results)]\n" ++ promptText) := by
  have hrows : Sample.twoRows.navigator.offered = 2 := by decide +kernel
  have hnone : Sample.session.navigator.offered = 0 := rfl
  have hnine : Selects 9 " select\t+09 " :=
    @Selects.intro 9 [' '] ['\t'] "+09".toList [' '] (by decide) (by decide) (by decide)
      ⟨1, .inr (by decide)⟩ (by decide)
  have hline : decode (chomp (encode " select\t+09 \r\n")) = .ok " select\t+09 " := by
    decide +kernel
  have hthree : decode (chomp (encode "select 3")) = .ok "select 3" := by decide +kernel
  obtain ⟨-, hpast, -⟩ := refusal_names_index (s := Sample.twoRows) Sample.world Sample.twice hnine
    hline (by rw [hrows]; decide) (by decide)
  obtain ⟨-, hempty, -⟩ := refusal_names_index (s := Sample.session) Sample.world Sample.twice
    selects_three hthree (by rw [hnone]; decide) (by decide)
  refine ⟨hrows, ?_, ?_⟩
  · rw [hpast, hrows]
    rfl
  · rw [hempty, hnone]
    rfl

/-- Three is refused by the number of the second and last row, and not by its own. -/
theorem refusal_names_last_row :
    Sample.twoRows.navigator.choices = some ⟨"/p", Listing.records Sample.twoMatches⟩ ∧
      (rows (Listing.records Sample.twoMatches)).getLast? =
        some ("  2  " ++ Record.row ⟨"b.c", "g", 5, "run(x);"⟩ ++ "\n") ∧
      Sample.twoRows.next Sample.world Sample.twice (encode "select 3\n") =
        Sample.twoRows.print (render (.status (refusalText 2 2)) ++ promptText) ∧
      Sample.twoRows.next Sample.world Sample.twice (encode "select 3\n") ≠
        Sample.twoRows.print (render (.status (refusalText 3 2)) ++ promptText) := by
  refine ⟨?_, ?_, ?_, ?_⟩ <;> decide +kernel

end Xref.Terminal.Session
