import Xref.Proofs.Nearest

/-!
# Directories around the start

The search goes along the text of a path, and a probe along what exists. Where nothing is a link,
both readings agree but for "..": the text above it still names the directory that it leaves. What
is found is therefore a directory around the start as long as no ".." leaves it on the rest of the
path to the start, and need not be one otherwise.
-/

namespace Xref

def Location.follow (location : Location) (name : String) : Location :=
  if name = "" ∨ name = "." then location
  else if name = ".." then location.tail
  else name :: location

namespace Location

theorem foldl_follow_names (path : String) (location : Location) :
    (Path.names path).foldl follow location = (Path.pieces path).foldl follow location := by
  rw [Path.names, List.foldl_filter]
  congr 1
  funext location name
  by_cases he : name = ""
  · simp [follow, he]
  · by_cases hd : name = "."
    · simp [follow, hd]
    · simp [he, hd]

def Proper (location : Location) : Prop := ∀ name ∈ location, Path.IsName name ∧ name ≠ ".."

theorem Proper.foldl_follow {location : Location} (h : location.Proper) :
    location.reverse.foldl follow [] = location := by
  rw [List.foldl_reverse]
  induction location with
  | nil => rfl
  | cons name above ih =>
    obtain ⟨⟨hname, hdots⟩, habove⟩ := List.forall_mem_cons.mp h
    rw [List.foldr_cons, ih habove, follow, if_neg (by simp [hname.ne_empty, hname.ne_dot]),
      if_neg hdots]

theorem Proper.names_text {location : Location} (h : location.Proper) :
    Path.names location.text = location.reverse := by
  have hnamed : (⟨false, location, false⟩ : Path.Absolute).Named := fun name hm => (h name hm).1
  rw [← Path.Absolute.names_text hnamed]
  simp [text, Path.Absolute.text]

/-- Each ".." leaves a directory that was entered by one of the names before it. -/
def Stays (location : Location) (names : List String) : Prop :=
  ∀ front back, names = front ++ ".." :: back →
    location.length < (front.foldl follow location).length

theorem stays_of_not_mem {names : List String} (h : ".." ∉ names) (location : Location) :
    location.Stays names := by
  rintro front back rfl
  exact absurd (List.mem_append_right front List.mem_cons_self) h

theorem Stays.suffix {location : Location} {names : List String} (h : location.Stays names) :
    location <:+ names.foldl follow location := by
  induction names using List.reverseRecOn with
  | nil => exact List.suffix_refl _
  | append_singleton names name ih =>
    have hs : location <:+ names.foldl follow location :=
      ih fun front back hf => h front (back ++ [name]) (by simp [hf])
    rw [List.foldl_append, List.foldl_cons, List.foldl_nil, follow]
    split
    · exact hs
    split
    · next hd =>
      have hlt := h names [] (by rw [hd])
      obtain ⟨below, hb⟩ := hs
      cases below with
      | nil => simp [← hb] at hlt
      | cons first more =>
        rw [← hb]
        exact ⟨more, rfl⟩
    · exact hs.trans (List.suffix_cons _ _)

end Location

namespace Path

theorem pieces_ne_nil (path : String) : pieces path ≠ [] := by
  simp [pieces, splitChars_eq]

end Path

-- ---------------------------------------------------------------------------
-- Resolution
-- ---------------------------------------------------------------------------

namespace FileSystem

variable {fs : FileSystem} {p q : Place}

def LinkFree (fs : FileSystem) : Prop :=
  ∀ location target, fs.entries location ≠ some (.link target)

inductive Step (fs : FileSystem) (p : Place) : String → Place → Prop
  | here {name : String} (hp : fs.isDirectory p = true) (hn : name = "" ∨ name = ".") :
    Step fs p name p
  | up (hp : fs.isDirectory p = true) : Step fs p ".." p.parent
  | down {name : String} {entry : Entry} (hp : fs.isDirectory p = true)
    (hn : ¬(name = "" ∨ name = ".")) (hd : name ≠ "..") (hu : p.unlinked = 0)
    (hs : name.utf8ByteSize ≤ maxNameSize) (he : fs.entries (name :: p.location) = some entry)
    (hl : ∀ target, entry ≠ .link target) : Step fs p name ⟨name :: p.location, 0⟩

theorem Step.isDirectory {name : String} (h : fs.Step p name q) : fs.isDirectory p = true := by
  cases h <;> assumption

theorem linkFree_empty : empty.LinkFree := by
  simp [LinkFree, entries_empty]

theorem LinkFree.put {entry : Entry} (h : fs.LinkFree) (location : Location)
    (he : ∀ target, entry ≠ .link target) : (fs.put location (some entry)).LinkFree := by
  intro other target
  rw [entries_put]
  split
  · simpa using he target
  · exact h other target

theorem advance_cons_iff {name : String} {rest : List String} :
    fs.advance .inspection p (name :: rest) = .ok (.target (.found q)) ↔
      ∃ m, fs.Step p name m ∧ fs.advance .inspection m rest = .ok (.target (.found q)) := by
  rw [advance]
  simp only [reduceCtorEq, false_and, and_false, if_false]
  constructor
  · intro h
    split at h
    · cases h
    next hp =>
    have hp : fs.isDirectory p = true := by simpa using hp
    split at h
    · next hn => exact ⟨p, .here hp hn, h⟩
    next hn =>
    split at h
    · next hd =>
      subst hd
      exact ⟨p.parent, .up hp, h⟩
    next hd =>
    split at h
    · cases h
    next hu =>
    split at h
    · cases h
    next hs =>
    split at h
    · split at h <;> cases h
    · cases h
    · next entry hl he =>
      exact ⟨_, .down hp hn hd (by simpa using hu) (Nat.not_lt.mp hs) he hl, h⟩
  · rintro ⟨m, hm, h⟩
    cases hm with
    | here hp hn => simp [hp, hn, h]
    | up hp => simp [hp, h]
    | @down _ entry hp hn hd hu hs he hl =>
      simp only [hp, hn, hd, hu, Nat.not_lt.mpr hs, he, Bool.not_true, Bool.false_eq_true, ne_eq,
        not_true_eq_false, if_false]
      cases entry with
      | link target => exact absurd rfl (hl target)
      | directory => exact h
      | file => exact h

theorem advance_append_iff {front back : List String} :
    fs.advance .inspection p (front ++ back) = .ok (.target (.found q)) ↔
      ∃ m, fs.advance .inspection p front = .ok (.target (.found m)) ∧
        fs.advance .inspection m back = .ok (.target (.found q)) := by
  induction front generalizing p with
  | nil => simp [advance]
  | cons name rest ih =>
    simp only [List.cons_append, advance_cons_iff, ih]
    constructor
    · rintro ⟨n, hn, m, hm, h⟩
      exact ⟨m, ⟨n, hn, hm⟩, h⟩
    · rintro ⟨m, ⟨n, hn, hm⟩, h⟩
      exact ⟨n, hn, m, hm, h⟩

theorem eq_of_advance {names : List String} (hp : p.unlinked = 0)
    (h : fs.advance .inspection p names = .ok (.target (.found q))) :
    q = ⟨names.foldl Location.follow p.location, 0⟩ := by
  induction names generalizing p with
  | nil =>
    cases h
    rw [← hp]
    rfl
  | cons name rest ih =>
    obtain ⟨m, hm, h⟩ := advance_cons_iff.mp h
    rw [List.foldl_cons, Location.follow]
    cases hm with
    | here _ hn =>
      rw [if_pos hn]
      exact ih hp h
    | up _ => exact ih (by simp [Place.parent, hp]) h
    | down _ hn hd _ _ _ _ =>
      rw [if_neg hn, if_neg hd]
      exact ih rfl h

theorem LinkFree.advance_ne_link (hl : fs.LinkFree) {names : List String} {directory : Place}
    {target : String} {rest : List String} :
    fs.advance .inspection p names ≠ .ok (.link directory target rest) := by
  induction names generalizing p with
  | nil => simp [advance]
  | cons name more ih =>
    unfold advance
    repeat' split
    all_goals first
      | exact ih
      | simp
    next he _ => exact absurd he (hl _ _)

theorem LinkFree.walk_found_iff (hl : fs.LinkFree) {names : List String} {links : Nat} :
    fs.walk .inspection links p names = .ok (.found q) ↔
      fs.advance .inspection p names = .ok (.target (.found q)) := by
  unfold walk
  split
  · next h => simp [h]
  · next h => simp [h]
  · next h => exact absurd h hl.advance_ne_link

theorem resolve_eq_ok_iff {purpose : Purpose} {base : Place} {path : String} {target : Target} :
    fs.resolve purpose base path = .ok target ↔
      '\x00' ∉ path.toList ∧ path ≠ "" ∧ path.utf8ByteSize ≤ maxPathSize ∧
        fs.walk purpose maxLinks (if Path.isAbsolute path then Place.root else base)
          (Path.pieces path) = .ok target := by
  unfold resolve
  by_cases hz : '\x00' ∈ path.toList
  · simp [hz]
  · by_cases he : path = ""
    · simp [he]
    · by_cases hs : maxPathSize < path.utf8ByteSize
      · simp only [hz, he, hs, not_false_eq_true, ne_eq, true_and]
        simp [Nat.not_le.mpr hs, he, hz]
      · simp [hz, he, hs, Nat.not_lt.mp hs]

end FileSystem

namespace World

variable {w : World} {base file path : String} {p : Place} {entry : Entry}

theorem lookup_eq_ok_iff :
    w.lookup path = .ok (p, entry) ↔
      w.resolve .inspection path = .ok (.found p) ∧ w.files.entryAt p = some entry := by
  unfold lookup
  split
  · next h => simp [h]
  · next h => simp [h]
  · next q h =>
    rw [h]
    constructor
    · intro hl
      split at hl
      · next he =>
        cases hl
        exact ⟨rfl, he⟩
      · cases hl
    · rintro ⟨⟨⟩, he⟩
      rw [he]

theorem exists_of_isFile (h : w.isFile path = true) :
    ∃ p, w.resolve .inspection path = .ok (.found p) := by
  cases hl : w.lookup path with
  | error e => simp [isFile, stat, hl] at h
  | ok found => exact ⟨found.1, (lookup_eq_ok_iff.mp hl).1⟩

theorem resolve_absolute_iff (hl : w.files.LinkFree) (ha : Path.isAbsolute path = true) :
    w.resolve .inspection path = .ok (.found p) ↔
      '\x00' ∉ path.toList ∧ path.utf8ByteSize ≤ FileSystem.maxPathSize ∧
        w.files.advance .inspection .root (Path.pieces path) = .ok (.target (.found p)) := by
  have hne : path ≠ "" := by
    rintro rfl
    cases ha
  rw [resolve, FileSystem.resolve_eq_ok_iff, if_pos ha, hl.walk_found_iff]
  simp [hne]

theorem lookup_of_isFile_join (hl : w.files.LinkFree) (hb : Path.isAbsolute base = true)
    (hf : Path.isAbsolute file = false) (h : w.isFile (Path.join base file) = true) :
    w.lookup base = .ok (⟨(Path.names base).foldl Location.follow [], 0⟩, .directory) := by
  obtain ⟨q, hq⟩ := exists_of_isFile h
  have ha : Path.isAbsolute (Path.join base file) = true := by rw [Path.isAbsolute_join hf, hb]
  obtain ⟨hz, hs, hq⟩ := (resolve_absolute_iff hl ha).mp hq
  rw [Path.pieces_join hf] at hq
  obtain ⟨m, hm, hrest⟩ := FileSystem.advance_append_iff.mp hq
  -- The file is looked up by name from there.
  have hdirectory : w.files.isDirectory m = true := by
    obtain ⟨name, rest, hn⟩ := List.exists_cons_of_ne_nil (Path.pieces_ne_nil file)
    rw [hn] at hrest
    obtain ⟨_, hstep, -⟩ := FileSystem.advance_cons_iff.mp hrest
    exact hstep.isDirectory
  have hadvance :
      w.files.advance .inspection .root (Path.pieces base) = .ok (.target (.found m)) := by
    obtain hb | hb := Path.pieces_eq_leading base
    · rw [hb, hm]
    · have hend : w.files.advance .inspection m [""] = .ok (.target (.found m)) :=
        FileSystem.advance_cons_iff.mpr ⟨m, .here hdirectory (.inl rfl), rfl⟩
      rw [hb]
      exact FileSystem.advance_append_iff.mpr ⟨m, hm, hend⟩
  have hplace : m = ⟨(Path.pieces base).foldl Location.follow [], 0⟩ :=
    FileSystem.eq_of_advance rfl hadvance
  obtain ⟨between, hstem⟩ := Path.exists_stem base
  rw [Path.join_eq_stem_append hf, hstem] at hz hs
  simp only [String.toList_append, List.mem_append, not_or] at hz
  simp only [String.utf8ByteSize_append] at hs
  rw [Location.foldl_follow_names, lookup_eq_ok_iff, resolve_absolute_iff hl hb, ← hplace]
  refine ⟨⟨hz.1.1, by omega, hadvance⟩, ?_⟩
  simpa [FileSystem.isDirectory] using hdirectory

theorem workingPath_eq_ok {text : String} (h : w.workingPath = .ok text) :
    w.workingDirectory.unlinked = 0 ∧ text = w.workingDirectory.location.text := by
  unfold workingPath at h
  split at h
  · next hu =>
    cases h
    exact ⟨hu, rfl⟩
  · cases h

theorem eq_of_lookup (hl : w.files.LinkFree) (h : w.lookup path = .ok (p, entry)) :
    (Path.isAbsolute path = true → p = ⟨(Path.names path).foldl Location.follow [], 0⟩) ∧
      (Path.isAbsolute path = false → w.workingDirectory.unlinked = 0 →
        p = ⟨(Path.names path).foldl Location.follow w.workingDirectory.location, 0⟩) := by
  obtain ⟨hr, -⟩ := lookup_eq_ok_iff.mp h
  obtain ⟨-, -, -, hwalk⟩ := FileSystem.resolve_eq_ok_iff.mp hr
  rw [hl.walk_found_iff] at hwalk
  rw [Location.foldl_follow_names, Location.foldl_follow_names]
  constructor
  · intro ha
    rw [if_pos ha] at hwalk
    exact FileSystem.eq_of_advance rfl hwalk
  · intro ha hu
    rw [ha, if_neg Bool.false_ne_true] at hwalk
    exact FileSystem.eq_of_advance hu hwalk

theorem eq_of_absolute? {whole : Path.Absolute} (hl : w.files.LinkFree)
    (hw : w.workingDirectory.location.Proper)
    (ha : Path.absolute? w.workingPath.toOption path = some whole)
    (h : w.lookup path = .ok (p, entry)) :
    p = ⟨whole.names.reverse.foldl Location.follow [], 0⟩ := by
  obtain ⟨habsolute, hrelative⟩ := eq_of_lookup hl h
  unfold Path.absolute? at ha
  dsimp only at ha
  split at ha
  · cases ha
  split at ha
  · next hstart =>
    obtain rfl := Option.some.inj ha
    rw [List.reverse_reverse]
    exact habsolute hstart
  · next hstart =>
    obtain ⟨directory, hd, rfl⟩ := Option.map_eq_some_iff.mp ha
    obtain ⟨hunlinked, hdirectory⟩ := workingPath_eq_ok (toOption_eq_some.mp hd)
    rw [hdirectory, hw.names_text, List.reverse_reverse, List.foldl_append, hw.foldl_follow]
    exact hrelative (by simpa using hstart) hunlinked

end World

/-- In a file system without links. What is found is a directory, and the names that were left out
lead from it to the start. It is the start or a directory around it, unless one of these names is a
".." that leaves it. -/
theorem Locator.locate?_around {locator : Locator} {w : World} {start directory : String}
    {place : Place} (hl : w.files.LinkFree) (hw : w.workingDirectory.location.Proper)
    (hf : Path.isAbsolute locator.fileName = false) (hs : w.lookup start = .ok (place, .directory))
    (h : locator.locate? w start = some directory) :
    ∃ (whole : Path.Absolute) (names : List String) (location : Location),
      Path.absolute? w.workingPath.toOption start = some whole ∧
        whole.names.reverse = Path.names directory ++ names ∧
        w.lookup directory = .ok (⟨location, 0⟩, .directory) ∧
        place = ⟨names.foldl Location.follow location, 0⟩ ∧
        (".." ∉ names → location.Stays names) ∧
        (location.Stays names → location <:+ place.location) := by
  obtain ⟨whole, best, ha, rfl, hnear⟩ := locate?_eq_some h
  obtain ⟨dropped, hdropped⟩ := hnear.encloses.names
  have hnamed : best.Named := hnear.encloses.named (Path.Absolute.named_of_absolute? ha)
  have hlookup := World.lookup_of_isFile_join hl best.isAbsolute_text hf hnear.holds
  have hplace := World.eq_of_absolute? hl hw ha hs
  have hnames : whole.names.reverse = Path.names best.text ++ dropped.reverse := by
    rw [Path.Absolute.names_text hnamed, ← hdropped, List.reverse_append]
  rw [hnames, List.foldl_append] at hplace
  refine ⟨whole, dropped.reverse, _, ha, hnames, hlookup, hplace, ?_, fun hstays => ?_⟩
  · exact fun hdots => Location.stays_of_not_mem hdots _
  · rw [hplace]
    exact hstays.suffix

namespace Sample

def beside : World := { world with files := world.files.put ["r"] (some .directory) }

theorem linkFree_world : world.files.LinkFree := by
  refine .put (.put (.put (.put FileSystem.linkFree_empty _ ?_) _ ?_) _ ?_) _ ?_
  all_goals
    rintro _ ⟨⟩

end Sample

namespace Locator

theorem locate?_around_by_detour :
    locate? {} Sample.nested "../p/d" = some "/p/../p" ∧
      Sample.nested.lookup "../p/d" = .ok (⟨["d", "p"], 0⟩, .directory) ∧
      ∃ location, Sample.nested.lookup "/p/../p" = .ok (⟨location, 0⟩, .directory) ∧
        location <:+ ["d", "p"] := by
  have hl : Sample.nested.files.LinkFree := Sample.linkFree_world.put _ (by rintro _ ⟨⟩)
  have hw : Sample.nested.workingDirectory.location.Proper :=
    List.forall_mem_singleton.mpr ⟨⟨by decide, by decide, by decide⟩, by decide⟩
  have hs : Sample.nested.lookup "../p/d" = .ok (⟨["d", "p"], 0⟩, .directory) := rfl
  have h : locate? {} Sample.nested "../p/d" = some "/p/../p" := by decide +kernel
  have hwhole : Path.absolute? Sample.nested.workingPath.toOption "../p/d" =
      some ⟨false, ["d", "p", "..", "p"], false⟩ := by decide +kernel
  obtain ⟨whole, names, location, ha, hn, hd, -, hstays, haround⟩ :=
    locate?_around hl hw rfl hs h
  obtain rfl := Option.some.inj (hwhole.symm.trans ha)
  have hnames : Path.names "/p/../p" = ["p", "..", "p"] := by decide +kernel
  obtain rfl : names = ["d"] := by simpa [hnames] using hn.symm
  exact ⟨h, hs, location, hd, haround (hstays (by decide))⟩

/-- The ".." leaves what is found: a directory beside the start. -/
theorem locate?_beside :
    Sample.beside.files.LinkFree ∧
      Sample.beside.lookup "/p/../r" = .ok (⟨["r"], 0⟩, .directory) ∧
      locate? {} Sample.beside "/p/../r" = some "/p" ∧
      Sample.beside.lookup "/p" = .ok (⟨["p"], 0⟩, .directory) ∧ ¬["p"] <:+ ["r"] := by
  refine ⟨Sample.linkFree_world.put _ (by rintro _ ⟨⟩), ?_, ?_, ?_, by decide⟩
  · rfl
  · decide +kernel
  · rfl

end Locator

end Xref
