import Xref.Proofs.Resolution

/-!
# Files that are written and moved

What is written by a name in a directory is the entry of that name, or the file that a link of that
name leads to, and with it every other name of that file. A write that stops halfway has opened the
file, so it leaves a beginning of the content there. Neither this nor a move changes where the names
of the directory are looked up.
-/

namespace Xref

def Target.location : Target → Location
  | .found p => p.location
  | .vacant directory name => name :: directory

theorem FileSystem.location_named (fs : FileSystem) (p : Place) (name : String) :
    (fs.named p name).location = name :: p.location := by
  unfold named
  split <;> rfl

theorem FileSystem.named_of_entry {fs : FileSystem} {p : Place} {name : String} {entry : Entry}
    (h : fs.entries (name :: p.location) = some entry) :
    fs.named p name = .found ⟨name :: p.location, 0⟩ := by
  simp [named, h]

theorem FileSystem.entryAt_cons (fs : FileSystem) (name : String) (place : Location) :
    fs.entryAt ⟨name :: place, 0⟩ = fs.entries (name :: place) := by
  simp [entryAt]

@[simp] theorem FileSystem.limits_rewrite (fs : FileSystem) (location : Location) (entry : Entry) :
    (fs.rewrite location entry).limits = fs.limits := by
  unfold rewrite
  split <;> rfl

namespace World

variable {w after : World} {directory name other source target path : String}
  {content : Bytes} {place : Location} {runnable : Bool} {used : Nat} {p : Place}
  {file : OpenFile}

def locate (w : World) (purpose : Purpose) (path : String) : Except SystemError Location :=
  (w.resolve purpose path).map Target.location

theorem locate_of_resolve {purpose : Purpose} {target : Target}
    (h : w.resolve purpose path = .ok target) :
    w.locate purpose path = .ok target.location := by
  rw [locate, h]
  rfl

theorem lookup_of_stat_error {e : SystemError} (h : w.stat path = .error e)
    (found : Place × Entry) : w.lookup path ≠ .ok found := by
  intro hl
  obtain ⟨q, entry⟩ := found
  cases entry <;> simp [stat, hl] at h

theorem lookup_of_stat_ok {type : FileType} (h : w.stat path = .ok type) :
    ∃ found, w.lookup path = .ok found := by
  cases hl : w.lookup path with
  | error e => simp [stat, hl] at h
  | ok found => exact ⟨found, rfl⟩

theorem entryAt_eq_file {fs : FileSystem} (h : fs.entryAt p = some (.file content runnable)) :
    fs.entries p.location = some (.file content runnable) := by
  unfold FileSystem.entryAt at h
  split at h
  · cases h
  · exact h

-- ---------------------------------------------------------------------------
-- One directory
-- ---------------------------------------------------------------------------

theorem Site.resolve_entry (hs : w.Site directory used ⟨place, 0⟩)
    (hd : w.files.isDirectory ⟨place, 0⟩ = true) (hn : Path.Plain name)
    (hf : Path.Fits (Path.join directory name)) :
    w.resolve .entry (Path.join directory name) = .ok (w.files.named ⟨place, 0⟩ name) :=
  (hs.resolve_iff hn.toIsName).mpr
    ⟨hf, FileSystem.walk_name hn hd rfl fun h => absurd rfl h⟩

theorem Site.lookup_eq_ok (hs : w.Site directory used ⟨place, 0⟩)
    (hd : w.files.isDirectory ⟨place, 0⟩ = true) (hn : Path.Plain name)
    (hf : Path.Fits (Path.join directory name)) {entry : Entry}
    (he : w.files.entries (name :: place) = some entry) (hl : ∀ link, entry ≠ .link link) :
    w.lookup (Path.join directory name) = .ok (⟨name :: place, 0⟩, entry) := by
  have hwalk : w.files.walk .inspection (FileSystem.maxLinks - used) ⟨place, 0⟩ [name] =
      .ok (w.files.named ⟨place, 0⟩ name) :=
    FileSystem.walk_name hn hd rfl fun _ link h => hl link (Option.some.inj (he.symm.trans h))
  rw [FileSystem.named_of_entry he] at hwalk
  rw [lookup_eq_ok_iff, FileSystem.entryAt_cons]
  exact ⟨(hs.resolve_iff hn.toIsName).mpr ⟨hf, hwalk⟩, he⟩

-- ---------------------------------------------------------------------------
-- Opening
-- ---------------------------------------------------------------------------

theorem bind_eq_ok_iff {result : Except ε α} {f : α → Except ε β} {b : β} :
    result >>= f = .ok b ↔ ∃ a, result = .ok a ∧ f a = .ok b := by
  cases result <;> simp [bind, Except.bind]

theorem openFile_eq_ok_iff : w.openFile path = .ok file ↔
    ∃ target, w.resolve .creation path = .ok target ∧ w.fileAt target = .ok file ∧
      w.files.limits.opening file.location = none := by
  simp only [openFile, bind_eq_ok_iff]
  refine exists_congr fun target => and_congr_right fun _ => ?_
  constructor
  · rintro ⟨found, hf, ho⟩
    split at ho
    · cases ho
    · next hnone =>
      cases ho
      exact ⟨hf, hnone⟩
  · rintro ⟨hf, ho⟩
    exact ⟨file, hf, by rw [ho]⟩

def Fresh (w : World) (file : OpenFile) : Prop :=
  w.files.entries file.location = none ∧ file.runnable = false ∨
    ∃ old, w.files.entries file.location = some (.file old file.runnable)

theorem Fresh.runnable_of_none (h : w.Fresh file) (hn : w.files.entries file.location = none) :
    file.runnable = false := by
  obtain ⟨-, hr⟩ | ⟨old, ho⟩ := h
  · exact hr
  · rw [hn] at ho
    cases ho

theorem fresh_of_fileAt {target : Target} {purpose : Purpose}
    (hr : w.resolve purpose path = .ok target) (hf : w.fileAt target = .ok file) :
    file.location = target.location ∧ w.Fresh file := by
  cases target with
  | vacant directory name =>
    obtain rfl := Except.ok.inj hf
    have hwalk := (FileSystem.resolve_eq_ok_iff.mp hr).2.2.2
    exact ⟨rfl, .inl ⟨FileSystem.entries_of_walk_vacant hwalk, rfl⟩⟩
  | found p =>
    simp only [fileAt] at hf
    split at hf
    · next he =>
      cases hf
      exact ⟨rfl, .inr ⟨_, entryAt_eq_file he⟩⟩
    · cases hf

/-- How a file is opened by a name in a directory: under that name, unless that is a link. -/
structure Opens (w : World) (directory name : String) (place : Location) (file : OpenFile) :
    Prop where
  site : ∃ used, w.Site directory used ⟨place, 0⟩
  isDirectory : w.files.isDirectory ⟨place, 0⟩ = true
  fits : Path.Fits (Path.join directory name)
  located : w.locate .creation (Path.join directory name) = .ok file.location
  fresh : w.Fresh file
  own : file.location = name :: place ∨
    ∃ link, w.files.entries (name :: place) = some (.link link)

theorem exists_opens (hn : Path.Plain name)
    (h : w.openFile (Path.join directory name) = .ok file) :
    ∃ place, w.Opens directory name place file := by
  obtain ⟨target, hr, hfile, -⟩ := openFile_eq_ok_iff.mp h
  obtain ⟨hl, hfresh⟩ := fresh_of_fileAt hr hfile
  obtain ⟨used, ⟨place, unlinked⟩, hs⟩ := exists_site hn.toIsName hr
  obtain ⟨hf, hwalk⟩ := (hs.resolve_iff hn.toIsName).mp hr
  obtain ⟨hd, rfl⟩ : _ ∧ unlinked = 0 := FileSystem.directory_of_walk hn hwalk
  refine ⟨place, ⟨used, hs⟩, hd, hf, by rw [locate_of_resolve hr, hl], hfresh, ?_⟩
  by_cases hlink : ∃ link, w.files.entries (name :: place) = some (.link link)
  · exact .inr hlink
  · have hnamed : w.files.walk .creation (FileSystem.maxLinks - used) ⟨place, 0⟩ [name] =
        .ok (w.files.named ⟨place, 0⟩ name) :=
      FileSystem.walk_name hn hd rfl fun _ link he => hlink ⟨link, he⟩
    obtain rfl := Except.ok.inj (hwalk.symm.trans hnamed)
    exact .inl (hl.trans (FileSystem.location_named _ _ _))

-- ---------------------------------------------------------------------------
-- Writing
-- ---------------------------------------------------------------------------

theorem entries_fill (file : OpenFile) (w : World) (content : Bytes) (other : Location) :
    (file.fill w content).files.entries other =
      if w.files.Twins file.location other then some (.file content file.runnable)
      else w.files.entries other :=
  FileSystem.entries_rewrite _ _ _ _

theorem twins_fill (file : OpenFile) (w : World) (content : Bytes) (location other : Location) :
    (file.fill w content).files.Twins location other ↔ w.files.Twins location other :=
  FileSystem.twins_rewrite _ _ _ _ _

@[simp] theorem limits_fill (file : OpenFile) (w : World) (content : Bytes) :
    (file.fill w content).files.limits = w.files.limits :=
  FileSystem.limits_rewrite _ _ _

theorem Fresh.keeps (h : w.Fresh file) (content : Bytes) :
    w.files.Keeps (file.fill w content).files :=
  FileSystem.keeps_rewrite content file.runnable
    (h.imp And.left fun ⟨old, ho⟩ => ⟨old, file.runnable, ho⟩)

theorem writeFile_of_openFile (h : w.openFile path = .ok file) (content : Bytes) :
    (∃ room cause, w.files.limits.writing file.location = some (room, cause) ∧
      room < content.length ∧
      w.writeFile path content = .error ⟨cause, file.fill w (content.take room)⟩) ∨
    w.writeFile path content = .ok (file.fill w content) := by
  rw [writeFile, h]
  dsimp only
  split
  · next room cause hr =>
    obtain ⟨hr, hroom⟩ := Option.filter_eq_some_iff.mp hr
    exact .inl ⟨room, cause, hr, by simpa using hroom, rfl⟩
  · exact .inr rfl

namespace Opens

variable (h : w.Opens directory name place file)
include h

theorem resolve_entry (content : Bytes) (ho : Path.Plain other)
    (hf : Path.Fits (Path.join directory other)) :
    w.resolve .entry (Path.join directory other) = .ok (w.files.named ⟨place, 0⟩ other) ∧
      (file.fill w content).resolve .entry (Path.join directory other) =
        .ok ((file.fill w content).files.named ⟨place, 0⟩ other) := by
  obtain ⟨used, hs⟩ := h.site
  have hk := h.fresh.keeps content
  have hafter : (file.fill w content).Site directory used ⟨place, 0⟩ := hs.keeps hk
  exact ⟨hs.resolve_entry h.isDirectory ho hf,
    hafter.resolve_entry (hk.isDirectory h.isDirectory) ho hf⟩

theorem locate_entry (ho : Path.Plain other) (hf : Path.Fits (Path.join directory other)) :
    w.locate .entry (Path.join directory other) = .ok (other :: place) := by
  rw [locate_of_resolve (h.resolve_entry [] ho hf).1, FileSystem.location_named]

theorem exists_entry (content : Bytes) :
    ∃ entry, (file.fill w content).files.entries (name :: place) = some entry := by
  rw [entries_fill]
  split
  · exact ⟨_, rfl⟩
  · next hne =>
    obtain ⟨link, hlink⟩ := h.own.resolve_left fun he => hne (.inl he.symm)
    exact ⟨_, hlink⟩

end Opens

-- ---------------------------------------------------------------------------
-- Moving
-- ---------------------------------------------------------------------------

theorem rename_eq_move {target' : Target} (hs : w.resolve .entry source = .ok (.found p))
    (ht : w.resolve .entry target = .ok target')
    (hd : ∀ q, target' = .found q → w.files.isDirectory q = false) :
    w.rename source target = w.move p.location target'.location := by
  unfold rename
  rw [hs, ht]
  cases target' with
  | vacant directory name => rfl
  | found q => simp [bind, Except.bind, hd q rfl, Target.location]

theorem move_eq (w : World) (source target : Location) :
    w.move source target =
      (w.files.limits.moving source target).elim
        (.ok { w with files := w.files.move source target }) .error := by
  unfold move
  split <;> simp_all

end World
end Xref
