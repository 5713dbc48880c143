import Xref.Proofs.Gate
import Xref.Proofs.Rows

/-!
# A single query

A single query takes the way of a find, where one match is a jump, several are a list and none is
an error. What comes out is all the same the records of the tool's output, and each is printed on
a line of its own.
-/

namespace Xref.CommandLine

-- ---------------------------------------------------------------------------
-- The records
-- ---------------------------------------------------------------------------

/-- Where a configuration lets a query look: in the directory that it names, if that passes the
check, or else in the nearest one above the working directory. -/
inductive Serves (w : World) (config : Config) (directory : String) : Prop
  | accepted {text} (hn : config.databaseDirectory = some text)
      (hc : Navigator.checkDirectory config.locator w text = .ok directory) :
      Serves w config directory
  | located {start} (hn : config.databaseDirectory = none) (hw : w.workingPath = .ok start)
      (hl : config.locator.locate? w start = some directory) : Serves w config directory

theorem Serves.navigator {w : World} {config : Config} {directory : String}
    (h : Serves w config directory) :
    ∃ nav notices, navigator w config = .ok nav ∧ nav.resolve w = some (directory, notices) := by
  let nav : Navigator :=
    { locator := config.locator, history := { capacity := config.stackCapacity.toNat } }
  cases h with
  | @accepted text hn hc =>
    have hseed : nav.seed w text = .ok { nav with directory := some directory } := by
      unfold Navigator.seed
      rw [hc]
    refine ⟨{ nav with directory := some directory }, [], ?_, rfl⟩
    simp only [CommandLine.navigator, hn]
    rw [hseed]
  | @located start hn hw hl =>
    refine ⟨nav, [Navigator.announcement directory], ?_, ?_⟩
    · simp only [CommandLine.navigator, hn]
      rfl
    · exact Navigator.resolve_eq_some.mpr (.inr ⟨rfl, rfl, start, hw, hl⟩)

def answered : Except Query.Error Bytes → Except Report (List Record)
  | .ok output => .ok (Listing.records output)
  | .error .noOutput => .ok []
  | .error e => .error (navigationReport (.query e))

section
variable {w : World} {config : Config} {directory command symbol : String} {kind : Query.Kind}

theorem queryRecords_eq (hs : Serves w config directory)
    (hc : Query.Kind.ofName? command = some kind) (hk : kind.supported = true)
    (hi : Inked symbol) (respond : Responder) :
    queryRecords w config respond command symbol =
      (answered (respond ⟨kind, symbol, directory⟩), [⟨kind, symbol, directory⟩]) := by
  obtain ⟨nav, notices, hn, hr⟩ := hs.navigator
  let step : Step := ⟨w, batchHost, respond, .find kind (some symbol)⟩
  have hresolve : nav.resolve step.world = some (directory, notices) := hr
  have hsymbol : Navigator.chooseSymbol (some symbol) step.host.word = some symbol :=
    Navigator.chooseSymbol_eq_some.mpr (.inl ⟨rfl, hi⟩)
  have hf := Navigator.find_asks ⟨kind, symbol, directory⟩ hk hresolve hsymbol
  simp only [step] at hf
  simp only [queryRecords, hc, hn, hf]
  cases respond ⟨kind, symbol, directory⟩ with
  | error e =>
    rw [Navigator.conclude_error]
    cases e with
    | noOutput => rfl
    | spawnFailed | readFailed | failed => rfl
  | ok output =>
    match hl : Listing.records output with
    | [] =>
      rw [Navigator.conclude_nil _ _ _ hl]
      simp [answered, hl]
    | [record] =>
      rw [Navigator.conclude_singleton _ _ _ hl]
      simp [answered, hl]
    | first :: second :: rest =>
      rw [Navigator.conclude_many _ _ _ (by simp [hl])]
      simp [answered]

-- ---------------------------------------------------------------------------
-- The lines
-- ---------------------------------------------------------------------------

def printedRows (records : List Record) : List String :=
  if records = [] then ["no matches"] else records.map Record.row

theorem lines_present {records : List Record} (h : ∀ r ∈ records, r.Presentable) :
    Text.lines (present false records) = (printedRows records, "") := by
  have hp : present false records = String.join ((printedRows records).map (· ++ "\n")) := by
    cases records with
    | nil => rfl
    | cons first rest => simp [present, printedRows, Function.comp_def]
  rw [hp]
  refine Text.lines_join fun row hm => ?_
  unfold printedRows at hm
  split at hm
  · obtain rfl := List.mem_singleton.mp hm
    decide
  · obtain ⟨r, hr, rfl⟩ := List.mem_map.mp hm
    exact (h r hr).newline_not_mem_row

/-- A query of a supported kind for a symbol that is not blank makes one request, and gives the
records of the output that answers it, all and in order, whether there are none, one or several.
No output is no record, and any other error is the query's own. Without JSON each record is
printed as its row on a line of its own, and no record as a line that says so. -/
theorem query_gives_records (hs : Serves w config directory)
    (hc : Query.Kind.ofName? command = some kind) (hk : kind.supported = true)
    (hi : Inked symbol) :
    let request : Query.Request := ⟨kind, symbol, directory⟩
    (∀ respond : Responder,
      (∀ output, respond request = .ok output →
        queryRecords w config respond command symbol =
            (.ok (Listing.records output), [request]) ∧
          Text.lines (present false (Listing.records output)) =
            (printedRows (Listing.records output), "")) ∧
      (respond request = .error .noOutput →
        queryRecords w config respond command symbol = (.ok [], [request])) ∧
      ∀ e, respond request = .error e → e ≠ .noOutput →
        queryRecords w config respond command symbol =
          (.error (navigationReport (.query e)), [request])) ∧
    let outcome := runQuery w config command symbol false
    (∀ output, config.tool.execute w request = .ok output →
      outcome.exitCode = 0 ∧
        Text.lines outcome.output = (printedRows (Listing.records output), "")) ∧
    (config.tool.execute w request = .error .noOutput →
      outcome.exitCode = 0 ∧ Text.lines outcome.output = (["no matches"], "")) ∧
    ∀ e, config.tool.execute w request = .error e → e ≠ .noOutput →
      outcome.exitCode = 1 ∧ outcome.output = "" ∧
        outcome.report = some (navigationReport (.query e)) := by
  intro request
  have hq (respond : Responder) := queryRecords_eq hs hc hk hi respond
  have hrows (output : Bytes) :
      Text.lines (present false (Listing.records output)) =
        (printedRows (Listing.records output), "") :=
    lines_present fun r => Listing.presentable_of_mem_records
  have hother (e : Query.Error) (he : e ≠ .noOutput) :
      answered (.error e) = .error (navigationReport (.query e)) := by
    cases e with
    | noOutput => exact absurd rfl he
    | spawnFailed | readFailed | failed => rfl
  refine ⟨fun respond => ⟨?_, ?_, ?_⟩, ?_, ?_, ?_⟩
  · intro output ho
    refine ⟨?_, hrows output⟩
    rw [hq, ho]
    rfl
  · intro ho
    rw [hq, ho]
    rfl
  · intro e ho he
    rw [hq, ho, hother e he]
  · intro output ho
    simp only [runQuery, hq]
    rw [ho]
    exact ⟨rfl, hrows output⟩
  · intro ho
    simp only [runQuery, hq]
    rw [ho]
    exact ⟨rfl, lines_present (by simp)⟩
  · intro e ho he
    simp only [runQuery, hq]
    rw [ho, hother e he]
    exact ⟨rfl, rfl, rfl⟩

end

end Xref.CommandLine

namespace Xref.Sample

def equipped : World :=
  { world with
    files := (world.files.put ["bin"] (some .directory)).put ["cscope", "bin"]
      (some (.file [] true))
    searchPath := ["/bin"]
    program := ⟨[.data twoMatches], [], .ok (.exited 3)⟩ }

def unmarked : Config := { stackCapacity := 0 }

end Xref.Sample

namespace Xref.CommandLine

theorem query_gives_records_unmarked :
    Serves Sample.equipped Sample.unmarked "/p" ∧
      queryRecords Sample.equipped Sample.unmarked (fun _ => .ok Sample.oneMatch)
          "find-callers" "run" =
        (.ok [⟨"a.c", "f", 3, "run();"⟩], [⟨.callers, "run", "/p"⟩]) ∧
      Text.lines (runQuery Sample.equipped Sample.unmarked "find-callers" "run" false).output =
        ([Record.row ⟨"a.c", "f", 3, "run();"⟩, Record.row ⟨"b.c", "g", 5, "run(x);"⟩], "") := by
  have hw : Sample.equipped.workingPath = .ok "/p" := by decide +kernel
  have hs : Serves Sample.equipped Sample.unmarked "/p" := .located rfl hw (by decide +kernel)
  have hi : Inked "run" := ⟨'r', by decide +kernel⟩
  have hone : Listing.records Sample.oneMatch = [⟨"a.c", "f", 3, "run();"⟩] := by decide +kernel
  have htwo : Listing.records Sample.twoMatches =
      [⟨"a.c", "f", 3, "run();"⟩, ⟨"b.c", "g", 5, "run(x);"⟩] := by
    decide +kernel
  have ho : Sample.unmarked.tool.execute Sample.equipped ⟨.callers, "run", "/p"⟩ =
      .ok Sample.twoMatches := by
    decide +kernel
  have hc : Query.Kind.ofName? "find-callers" = some .callers := by decide
  obtain ⟨hrecords, hprinted, -⟩ := query_gives_records hs hc rfl hi
  obtain ⟨hjump, -⟩ := (hrecords fun _ => .ok Sample.oneMatch).1 _ rfl
  obtain ⟨-, hlist⟩ := hprinted _ ho
  rw [hone] at hjump
  rw [htwo] at hlist
  exact ⟨hs, hjump, hlist⟩

end Xref.CommandLine
