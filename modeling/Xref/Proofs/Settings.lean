import Xref.Config
import Xref.Proofs.JsonWriting
import Xref.Proofs.Utf8

/-!
# The settings of a file

A file says some of the settings, each at most once and in any order, among members of other names
that say nothing. What is loaded are these settings on top of the defaults. The members that a
configuration is written as are of this kind, so it is loaded as it was.
-/

namespace Xref

open Text.Utf8 (encode)

namespace Config

-- ---------------------------------------------------------------------------
-- Members of a file
-- ---------------------------------------------------------------------------

inductive Key where
  | program
  | databaseFile
  | databaseDirectory
  | chunkSize
  | stackCapacity

namespace Key

abbrev Value : Key → Type
  | program | databaseFile => String
  | databaseDirectory => Option String
  | chunkSize | stackCapacity => UInt64

def name : Key → String
  | program => "program"
  | databaseFile => "databaseFile"
  | databaseDirectory => "databaseDir"
  | chunkSize => "chunkSize"
  | stackCapacity => "stackCapacity"

def read : (k : Key) → Json → Option k.Value
  | program | databaseFile => Json.text?
  | databaseDirectory => readPath
  | chunkSize | stackCapacity => readWord

/-- No path may be said as null. -/
def write : (k : Key) → k.Value → Json
  | program, text => .string (some text)
  | databaseFile, text => .string (some text)
  | databaseDirectory, none => .null
  | databaseDirectory, some path => .string (some path)
  | chunkSize, n => .number (toString n.toNat)
  | stackCapacity, n => .number (toString n.toNat)

def get (c : Config) : (k : Key) → k.Value
  | program => c.program
  | databaseFile => c.databaseFile
  | databaseDirectory => c.databaseDirectory
  | chunkSize => c.chunkSize
  | stackCapacity => c.stackCapacity

def set (c : Config) : (k : Key) → k.Value → Config
  | program, text => { c with program := text }
  | databaseFile, text => { c with databaseFile := text }
  | databaseDirectory, path => { c with databaseDirectory := path }
  | chunkSize, n => { c with chunkSize := n }
  | stackCapacity, n => { c with stackCapacity := n }

variable {j k : Key}

theorem mem_fieldNames (k : Key) : k.name ∈ fieldNames := by
  cases k <;> decide

theorem name_inj (h : j.name = k.name) : j = k := by
  cases j <;> cases k <;> first | rfl | simp [name] at h

theorem get_set (c : Config) (k : Key) (value : k.Value) : get (set c k value) k = value := by
  cases k <;> rfl

theorem get_set_of_ne (c : Config) (value : j.Value) (h : j ≠ k) :
    get (set c j value) k = get c k := by
  cases j <;> cases k <;> first | rfl | exact absurd rfl h

theorem readWord_toNat (n : UInt64) : readWord (.number (toString n.toNat)) = some n := by
  rw [readWord, Json.natural?_toString n.toNat_lt_size, Option.map_some, UInt64.ofNat_toNat]

theorem read_write (k : Key) (value : k.Value) : k.read (k.write value) = some value := by
  cases k with
  | program | databaseFile => rfl
  | databaseDirectory => cases value <;> rfl
  | chunkSize | stackCapacity => exact readWord_toNat value

end Key

/-- A member of a file. One whose name is no setting's may have any value. -/
inductive Member where
  | setting (key : Key) (value : key.Value)
  | other (name : String) (unknown : name ∉ fieldNames) (value : Json)

namespace Member

def name : Member → String
  | setting key _ => key.name
  | other name _ _ => name

def pair : Member → Option String × Json
  | setting key value => (some key.name, key.write value)
  | other name _ value => (some name, value)

def apply (c : Config) : Member → Config
  | setting key value => key.set c value
  | other .. => c

@[simp] theorem pair_fst (m : Member) : m.pair.1 = some m.name := by
  cases m <;> rfl

end Member

/-- The settings on top of the defaults. -/
def settings (members : List Member) : Config := members.foldl Member.apply {}

def Once (members : List Member) : Prop :=
  ∀ name ∈ fieldNames, (members.map Member.name).count name ≤ 1

instance (members : List Member) : Decidable (Once members) :=
  inferInstanceAs (Decidable (∀ name ∈ fieldNames, _))

-- ---------------------------------------------------------------------------
-- One setting
-- ---------------------------------------------------------------------------

section
variable {m : Member} {members : List Member} {k : Key}

theorem get_apply_of_ne (c : Config) (h : m.name ≠ k.name) : k.get (m.apply c) = k.get c := by
  cases m with
  | setting key value => exact Key.get_set_of_ne c value fun he => h (congrArg Key.name he)
  | other => rfl

theorem read_pair (c : Config) (h : m.name = k.name) :
    k.read m.pair.2 = some (k.get (m.apply c)) := by
  cases m with
  | setting key value =>
    obtain rfl := Key.name_inj h
    simp [Member.pair, Member.apply, Key.read_write, Key.get_set]
  | other name unknown value =>
    have hn : name = k.name := h
    exact absurd (hn ▸ k.mem_fieldNames) unknown

theorem get_foldl (c : Config) (h : k.name ∉ members.map Member.name) :
    k.get (members.foldl Member.apply c) = k.get c := by
  induction members generalizing c with
  | nil => rfl
  | cons m rest ih =>
    simp only [List.map_cons, List.mem_cons, not_or] at h
    rw [List.foldl_cons, ih _ h.2, get_apply_of_ne c (Ne.symm h.1)]

def values (name : String) (members : List Member) : List Json :=
  ((members.map Member.pair).filter (·.1 = some name)).map (·.2)

theorem read_values (c : Config) (h : (members.map Member.name).count k.name ≤ 1) :
    ∃ found, Json.single? (values k.name members) = some found ∧
      setting k.read (k.get c) found = some (k.get (members.foldl Member.apply c)) := by
  induction members generalizing c with
  | nil => exact ⟨none, rfl, rfl⟩
  | cons m rest ih =>
    by_cases he : m.name = k.name
    · have hrest : k.name ∉ rest.map Member.name := List.count_eq_zero.mp (by simpa [he] using h)
      have hnone : values k.name rest = [] := by simpa [values] using hrest
      have hv : values k.name (m :: rest) = m.pair.2 :: values k.name rest := by simp [values, he]
      refine ⟨some m.pair.2, by rw [hv, hnone]; rfl, ?_⟩
      rw [List.foldl_cons, get_foldl _ hrest]
      exact read_pair c he
    · have hv : values k.name (m :: rest) = values k.name rest := by simp [values, he]
      rw [List.map_cons, List.count_cons_of_ne he] at h
      obtain ⟨found, hs, hr⟩ := ih (m.apply c) h
      rw [get_apply_of_ne c he] at hr
      exact ⟨found, hv ▸ hs, hr⟩

end

-- ---------------------------------------------------------------------------
-- The whole file
-- ---------------------------------------------------------------------------

section
variable {members : List Member} {w : World} {source : Option String} {text : String}

def json (members : List Member) : Json := .object (members.map Member.pair)

theorem fields?_json :
    (json members).fields? fieldNames =
      fieldNames.mapM fun name => Json.single? (values name members) := by
  have hn : (members.map Member.pair).all (·.1.isSome) = true := by simp
  simp only [json, Json.fields?, hn, if_true]
  rfl

theorem ofJson?_json (h : Once members) : ofJson? (json members) = some (settings members) := by
  have hkey (k : Key) : ∃ found, Json.single? (values k.name members) = some found ∧
      setting k.read (k.get {}) found = some (k.get (settings members)) :=
    read_values {} (h _ k.mem_fieldNames)
  obtain ⟨found, hfound⟩ := Classical.skolem.mp hkey
  have hnames : fieldNames = [Key.program.name, Key.databaseFile.name, Key.databaseDirectory.name,
      Key.chunkSize.name, Key.stackCapacity.name] := rfl
  have hfields : (json members).fields? fieldNames = some [found .program, found .databaseFile,
      found .databaseDirectory, found .chunkSize, found .stackCapacity] := by
    rw [fields?_json, hnames]
    simp only [List.mapM_cons, List.mapM_nil, (hfound _).1]
    rfl
  have hprogram := (hfound .program).2
  have hfile := (hfound .databaseFile).2
  have hdirectory := (hfound .databaseDirectory).2
  have hchunk := (hfound .chunkSize).2
  have hcapacity := (hfound .stackCapacity).2
  simp only [Key.read, Key.get] at hprogram hfile hdirectory hchunk hcapacity
  simp only [ofJson?, hfields, hprogram, hfile, hdirectory, hchunk, hcapacity,
    Option.bind_eq_bind, Option.bind_some, Option.pure_def]

theorem isFile_of_readBytes {path : String} {content : Bytes} (h : w.readBytes path = .ok content) :
    w.isFile path = true := by
  unfold World.readBytes at h
  split at h
  · cases h
  · next hl => simp [World.isFile, World.stat, hl]
  · cases h

theorem load_of_spells (ho : Once members) (ht : Json.Spells (json members).tokens text.toList)
    (hr : w.readBytes (source.getD fileName) = .ok (encode text)) :
    load w source = .ok (settings members) := by
  have hl : load w source = read w (source.getD fileName) := by
    cases source with
    | none =>
      have hf : w.isFile fileName = true := isFile_of_readBytes hr
      simp only [load, hf, if_true]
      rfl
    | some path => rfl
  have htext : w.readText (source.getD fileName) = .ok text := by
    simp only [World.readText, hr, Text.Utf8.decode_encode]
    rfl
  have hparse : parse? text = some (settings members) := by
    rw [parse?, Json.parse?_of_spells ht]
    exact ofJson?_json ho
  simp only [hl, read, htext, hparse]

-- ---------------------------------------------------------------------------
-- A file that was written
-- ---------------------------------------------------------------------------

def written (c : Config) : List Member :=
  [.setting .program c.program, .setting .databaseFile c.databaseFile] ++
    c.databaseDirectory.toList.map (fun path => .setting .databaseDirectory (some path)) ++
    [.setting .chunkSize c.chunkSize, .setting .stackCapacity c.stackCapacity]

theorem json_written (c : Config) : json (written c) = Json.objectOf c.members := by
  obtain ⟨program, file, path, chunk, capacity⟩ := c
  cases path <;> rfl

theorem settings_written (c : Config) : settings (written c) = c := by
  obtain ⟨program, file, path, chunk, capacity⟩ := c
  cases path <;> rfl

theorem once_written (c : Config) : Once (written c) := by
  have hs : ((written c).map Member.name).Sublist fieldNames := by
    obtain ⟨program, file, path, chunk, capacity⟩ := c
    cases path <;> exact List.isSublist_iff_sublist.mp rfl
  have hn : ∀ name ∈ fieldNames, fieldNames.count name ≤ 1 := by decide
  exact fun name hm => (hs.count_le name).trans (hn name hm)

/-- A file that holds a configuration as it is written, on one line or on several, is loaded as
that configuration. A file that holds any text of an object that says some settings, each once at
most, among other members is loaded as those settings on top of the defaults. The file of the
working directory is loaded where no other is named. -/
theorem load_file (w : World) (source : Option String) :
    (∀ (c : Config) (text : String),
      (text = Json.compact c.members ∨ text = Json.pretty "" c.members) →
      w.readBytes (source.getD fileName) = .ok (encode text) → load w source = .ok c) ∧
    ∀ (members : List Member) (text : String), Once members →
      Json.Spells (json members).tokens text.toList →
      w.readBytes (source.getD fileName) = .ok (encode text) →
      load w source = .ok (settings members) := by
  refine ⟨?_, fun members text ho ht hr => load_of_spells ho ht hr⟩
  intro c text ht hr
  have hs : Json.Spells (json (written c)).tokens text.toList := by
    rw [json_written]
    obtain rfl | rfl := ht
    · exact (Json.leads_compact c.members).spells
    · exact (Json.leads_pretty "" (List.forall_mem_nil _) c.members).spells
  rw [load_of_spells (once_written c) hs hr, settings_written]

end

end Config

namespace Sample

def furnished (text : String) : World where
  files :=
    (FileSystem.empty.put ["p"] (some .directory)).put [Config.fileName, "p"]
      (some (.file (encode text) false))
  workingDirectory := ⟨["p"], 0⟩
  home := "/home"
  searchPath := []
  program := ⟨[], [], .ok (.exited 0)⟩

def custom : Config := ⟨"a \"b\"\n", "ä\\", some "/p", 0xFFFFFFFFFFFFFFFF, 0⟩

def partly : List Config.Member :=
  [.other "theme" (by decide) .null, .setting .stackCapacity 16,
    .setting .databaseDirectory none]

def partlyText : String := "\x7b\"theme\": null, \"stackCapacity\":16,\n\"databaseDir\" : null\x7d"

theorem spells_partly : Json.Spells (Config.json partly).tokens partlyText.toList := by
  have h := Json.Spells.mark (c := '{') rfl <| .quote "theme" <| .mark (c := ':') rfl <|
    .blank (c := ' ') rfl <| .name "null".toList rfl (Json.ends_cons (by decide)) <|
    .mark (c := ',') rfl <| .blank (c := ' ') rfl <| .quote "stackCapacity" <|
    .mark (c := ':') rfl <| .number false 16 (Json.ends_cons (by decide)) <|
    .mark (c := ',') rfl <| .blank (c := '\n') rfl <| .quote "databaseDir" <|
    .blank (c := ' ') rfl <| .mark (c := ':') rfl <| .blank (c := ' ') rfl <|
    .name "null".toList rfl (Json.ends_cons (by decide)) <| .mark (c := '}') rfl .nil
  exact h

end Sample

namespace Config

theorem load_file_custom :
    load (Sample.furnished (Json.compact Sample.custom.members)) none = .ok Sample.custom ∧
      load (Sample.furnished Sample.partlyText) (some "/p/.cscope-nav.json") =
        .ok { stackCapacity := 16 } := by
  refine ⟨(load_file _ none).1 _ _ (.inl rfl) (by decide +kernel), ?_⟩
  exact (load_file _ (some "/p/.cscope-nav.json")).2 Sample.partly _ (by decide +kernel)
    Sample.spells_partly (by decide +kernel)

end Config
end Xref
