import Xref.Proofs.JsonWriting
import Xref.Proofs.SingleQuery

/-!
# Records in JSON

The records that a query prints as JSON are read back as the same records, in the same order,
whatever characters their fields hold. So is a record on a line of its own.
-/

namespace Xref

namespace Record

def listOfJson? : Json → Option (List Record)
  | .array items => items.mapM ofJson?
  | _ => none

def parseList? (text : String) : Option (List Record) := (Json.parse? text).bind listOfJson?

theorem ofJson?_members (r : Record) : ofJson? (Json.objectOf r.members) = some r := by
  have hf : (Json.objectOf r.members).fields? fieldNames =
      some [some (.string (some r.file)), some (.string (some r.scope)),
        some (.number (toString r.line.toNat)), some (.string (some r.context))] := rfl
  have hl := Json.natural?_toString r.line.toNat_lt_size
  simp only [ofJson?, hf, Json.text?, hl, Option.bind_eq_bind, Option.bind_some, Option.pure_def,
    UInt32.ofNat_toNat]

theorem listOfJson?_members (rs : List Record) :
    listOfJson? (.array ((rs.map members).map Json.objectOf)) = some rs := by
  have h (r : Record) : (ofJson? ∘ Json.objectOf ∘ members) r = pure (id r) := ofJson?_members r
  rw [listOfJson?, List.map_map, List.mapM_map, funext h, List.mapM_pure, List.map_id]
  rfl

theorem parse?_compact (r : Record) : parse? (Json.compact r.members) = some r := by
  rw [parse?, Json.parse?_compact, Option.bind_some, ofJson?_members]

theorem parseList?_prettyList (rs : List Record) :
    parseList? (Json.prettyList (rs.map members)) = some rs := by
  rw [parseList?, Json.parse?_prettyList, Option.bind_some, listOfJson?_members]

theorem parseList?_present (rs : List Record) :
    parseList? (CommandLine.present true rs) = some rs := by
  have hleads := Json.leads_prettyList (rs.map members)
  have hs : Json.Spells (Json.array ((rs.map members).map Json.objectOf)).tokens
      (CommandLine.present true rs).toList := by
    have h := hleads [] ['\n'] (Json.ends_cons (by decide)) (.blank rfl .nil)
    simpa [CommandLine.present] using h
  rw [parseList?, Json.parse?_of_spells hs, Option.bind_some, listOfJson?_members]

end Record

namespace CommandLine

/-- Any records are read back from the JSON that is printed for them, and each from its own line.
So the JSON that a query prints holds the records of the output that answered it, and the empty
list where there was no output. -/
theorem json_gives_records :
    (∀ rs : List Record,
      Record.parseList? (Json.prettyList (rs.map Record.members)) = some rs ∧
        Record.parseList? (present true rs) = some rs ∧
        ∀ r ∈ rs, Record.parse? (Json.compact r.members) = some r) ∧
    ∀ {w : World} {config : Config} {directory command symbol : String} {kind : Query.Kind},
      Serves w config directory → Query.Kind.ofName? command = some kind → kind.supported = true →
      Inked symbol →
      let outcome := runQuery w config command symbol true
      (∀ output, config.tool.execute w ⟨kind, symbol, directory⟩ = .ok output →
        outcome.exitCode = 0 ∧
          Record.parseList? outcome.output = some (Listing.records output)) ∧
      (config.tool.execute w ⟨kind, symbol, directory⟩ = .error .noOutput →
        outcome.exitCode = 0 ∧ Record.parseList? outcome.output = some []) := by
  refine ⟨?_, ?_⟩
  · intro rs
    exact ⟨Record.parseList?_prettyList rs, Record.parseList?_present rs,
      fun r _ => Record.parse?_compact r⟩
  · intro w config directory command symbol kind hs hc hk hi
    have hq := queryRecords_eq hs hc hk hi fun request => config.tool.execute w request
    refine ⟨?_, ?_⟩
    · intro output ho
      simp only [runQuery, hq, ho, answered]
      exact ⟨trivial, Record.parseList?_present _⟩
    · intro ho
      simp only [runQuery, hq, ho, answered]
      exact ⟨trivial, Record.parseList?_present _⟩

end CommandLine

namespace Sample

def odd : Record := ⟨"a\"b\\.c", "\uFFFD", 0xFFFFFFFF, "x\t\x00 😀 /* \x7b */"⟩

end Sample

namespace CommandLine

theorem json_gives_records_two :
    Record.parseList? (present true [Sample.odd, Sample.odd]) = some [Sample.odd, Sample.odd] ∧
      Record.parseList?
          (runQuery Sample.equipped Sample.unmarked "find-callers" "run" true).output =
        some [⟨"a.c", "f", 3, "run();"⟩, ⟨"b.c", "g", 5, "run(x);"⟩] := by
  have hw : Sample.equipped.workingPath = .ok "/p" := by decide +kernel
  have hs : Serves Sample.equipped Sample.unmarked "/p" := .located rfl hw (by decide +kernel)
  have hi : Inked "run" := ⟨'r', by decide +kernel⟩
  have htwo : Listing.records Sample.twoMatches =
      [⟨"a.c", "f", 3, "run();"⟩, ⟨"b.c", "g", 5, "run(x);"⟩] := by
    decide +kernel
  have ho : Sample.unmarked.tool.execute Sample.equipped ⟨.callers, "run", "/p"⟩ =
      .ok Sample.twoMatches := by
    decide +kernel
  have hc : Query.Kind.ofName? "find-callers" = some .callers := by decide
  refine ⟨(json_gives_records.1 _).2.1, ?_⟩
  rw [((json_gives_records.2 hs hc rfl hi).1 _ ho).2, htwo]

end CommandLine
end Xref
