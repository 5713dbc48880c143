import Xref.Proofs.Ancestors

/-!
# Resolution through links

Where names lead, link by link, as a relation beside the resolution that computes it. Names in one
directory are resolved from one place, however the directory itself is reached, and a file that is
written moves none of this.
-/

namespace Xref

namespace Path

theorem IsName.isAbsolute_eq_false {name : String} (h : IsName name) : isAbsolute name = false := by
  rw [isAbsolute, decide_eq_false_iff_not]
  exact fun hs => h.separator_not_mem (List.mem_of_mem_head? hs)

theorem IsName.proper {name : String} (h : IsName name) : ¬(name = "" ∨ name = ".") :=
  not_or.mpr ⟨h.ne_empty, h.ne_dot⟩

/-- Stands for an entry of a directory, and is short enough for one. -/
structure Plain (name : String) : Prop extends IsName name where
  not_up : name ≠ ".."
  size : name.utf8ByteSize ≤ FileSystem.maxNameSize

structure Fits (path : String) : Prop where
  size : path.utf8ByteSize ≤ FileSystem.maxPathSize
  nul : '\x00' ∉ path.toList

end Path

def Place.follow (p : Place) (target : String) : Place :=
  if Path.isAbsolute target then .root else p

namespace FileSystem

variable {fs : FileSystem} {purpose : Purpose} {p q : Place} {name target : String}
  {names rest back : List String} {links used : Nat}

structure LinkAt (fs : FileSystem) (p : Place) (name target : String) : Prop where
  directory : fs.isDirectory p = true
  proper : ¬(name = "" ∨ name = ".")
  down : name ≠ ".."
  linked : p.unlinked = 0
  size : name.utf8ByteSize ≤ maxNameSize
  entry : fs.entries (name :: p.location) = some (.link target)

/-- The place that names lead to from another, and how many links are followed on the way. -/
inductive Reaches (fs : FileSystem) : Nat → Place → List String → Place → Prop
  | done (p : Place) : Reaches fs 0 p [] p
  | step {links : Nat} {p m q : Place} {name : String} {rest : List String}
    (hs : fs.Step p name m) (h : Reaches fs links m rest q) : Reaches fs links p (name :: rest) q
  | link {links : Nat} {p q : Place} {name target : String} {rest : List String}
    (hl : fs.LinkAt p name target)
    (h : Reaches fs links (p.follow target) (Path.pieces target ++ rest) q) :
    Reaches fs (links + 1) p (name :: rest) q

/-- What follows does not change how the names before it are resolved: a link before it is followed,
and no separator before it is the last thing of the path. -/
def Passes (back : List String) : Purpose → Prop
  | .inspection => True
  | .creation => ∃ name ∈ back, name ≠ ""
  | .entry => back ≠ []

theorem passes_inspection (back : List String) : Passes back .inspection := trivial

theorem Passes.creation (h : Passes back purpose) (rest : List String) :
    ¬(purpose = .creation ∧ rest ++ back ≠ [] ∧ (rest ++ back).all (·.isEmpty) = true) := by
  rintro ⟨rfl, -, hall⟩
  obtain ⟨name, hm, hne⟩ := h
  have he := List.all_eq_true.mp hall name (List.mem_append_right rest hm)
  exact hne (String.isEmpty_iff.mp he)

theorem Passes.entry (h : Passes back purpose) (rest : List String) :
    ¬(rest ++ back = [] ∧ purpose = .entry) := by
  rintro ⟨he, rfl⟩
  exact h (List.append_eq_nil_iff.mp he).2

-- ---------------------------------------------------------------------------
-- One name
-- ---------------------------------------------------------------------------

theorem advance_step (hp : Passes back purpose) (hs : fs.Step p name q) :
    fs.advance purpose p (name :: (rest ++ back)) = fs.advance purpose q (rest ++ back) := by
  rw [advance]
  cases hs with
  | here hd hn => simp [hd, hn]
  | up hd => simp [hd]
  | @down _ entry hd hn hu hl hs he hx =>
    rw [if_neg (by simp [hd]), if_neg hn, if_neg hu, if_neg (hp.creation rest),
      if_neg (by simp [hl]), if_neg (Nat.not_lt.mpr hs), he]
    cases entry with
    | link target => exact absurd rfl (hx target)
    | directory | file => rfl

theorem advance_linkAt (hp : Passes back purpose) (hl : fs.LinkAt p name target) :
    fs.advance purpose p (name :: (rest ++ back)) = .ok (.link p target (rest ++ back)) := by
  rw [advance, if_neg (by simp [hl.directory]), if_neg hl.proper, if_neg hl.down,
    if_neg (hp.creation rest), if_neg (by simp [hl.linked]), if_neg (Nat.not_lt.mpr hl.size),
    hl.entry]
  exact if_neg (hp.entry rest)

theorem advance_cons_cases (fs : FileSystem) (purpose : Purpose) (p : Place) (name : String)
    (rest : List String) :
    (∃ m, fs.Step p name m) ∨ (∃ target, fs.LinkAt p name target) ∨
      (∃ e, fs.advance purpose p (name :: rest) = .error e) ∨
      rest = [] ∧ ∃ directory, fs.advance purpose p (name :: rest) =
        .ok (.target (.vacant directory name)) := by
  rw [advance]
  split
  · exact .inr (.inr (.inl ⟨_, rfl⟩))
  next hd =>
  have hd : fs.isDirectory p = true := by simpa using hd
  split
  · next hn => exact .inl ⟨p, .here hd hn⟩
  next hn =>
  split
  · next hu =>
    subst hu
    exact .inl ⟨p.parent, .up hd⟩
  next hu =>
  split
  · exact .inr (.inr (.inl ⟨_, rfl⟩))
  split
  · exact .inr (.inr (.inl ⟨_, rfl⟩))
  next hl =>
  have hl : p.unlinked = 0 := by simpa using hl
  split
  · exact .inr (.inr (.inl ⟨_, rfl⟩))
  next hs =>
  have hs : name.utf8ByteSize ≤ maxNameSize := Nat.not_lt.mp hs
  split
  · split
    · next hr => exact .inr (.inr (.inr ⟨hr, _, rfl⟩))
    · exact .inr (.inr (.inl ⟨_, rfl⟩))
  · next target he => exact .inr (.inl ⟨target, hd, hn, hu, hl, hs, he⟩)
  · next entry hx he => exact .inl ⟨_, .down hd hn hu hl hs he hx⟩

theorem passes_name (h : Path.IsName name) : Passes [name] purpose := by
  cases purpose with
  | inspection => trivial
  | creation => exact ⟨name, List.mem_cons_self, h.ne_empty⟩
  | entry => exact List.cons_ne_nil _ _

-- ---------------------------------------------------------------------------
-- Many names
-- ---------------------------------------------------------------------------

@[simp] theorem walk_nil : fs.walk purpose links p [] = .ok (.found p) := by
  unfold walk
  rfl

theorem walk_step (hp : Passes back purpose) (hs : fs.Step p name q) :
    fs.walk purpose links p (name :: (rest ++ back)) = fs.walk purpose links q (rest ++ back) := by
  unfold walk
  rw [advance_step hp hs]

theorem walk_linkAt (hp : Passes back purpose) (hl : fs.LinkAt p name target) :
    fs.walk purpose (links + 1) p (name :: (rest ++ back)) =
      fs.walk purpose links (p.follow target) (Path.pieces target ++ rest ++ back) := by
  rw [walk, advance_linkAt hp hl, List.append_assoc]
  rfl

theorem walk_linkAt_zero (hp : Passes back purpose) (hl : fs.LinkAt p name target) :
    fs.walk purpose 0 p (name :: (rest ++ back)) = .error .tooManyLinks := by
  rw [walk, advance_linkAt hp hl]

/-- What follows is resolved from where the names before it lead, with the links that are left. -/
theorem Reaches.walk_append (h : fs.Reaches used p names q) (hp : Passes back purpose)
    (hu : used ≤ links) :
    fs.walk purpose links p (names ++ back) = fs.walk purpose (links - used) q back := by
  induction h generalizing links with
  | done p => rfl
  | step hs _ ih => rw [List.cons_append, walk_step hp hs, ih hu]
  | @link used p q name target rest hl _ ih =>
    obtain ⟨more, rfl⟩ := Nat.exists_eq_add_of_le hu
    have hlinks : used + 1 + more = used + more + 1 := by omega
    have hleft : used + more + 1 - (used + 1) = used + more - used := by omega
    rw [hlinks, List.cons_append, walk_linkAt hp hl, ih (Nat.le_add_right used more), hleft]

/-- Names that are resolved lead somewhere, all but those that are looked up there. The outer
induction is on the links, since a link puts new names in the place of its own. -/
theorem exists_reaches (hp : Passes back purpose) {target : Target}
    (hb : back = [] → ∃ q, target = .found q)
    (h : fs.walk purpose links p (names ++ back) = .ok target) :
    ∃ used q, used ≤ links ∧ fs.Reaches used p names q ∧
      fs.walk purpose (links - used) q back = .ok target := by
  induction links using Nat.strongRecOn generalizing p names with
  | ind links outer =>
    induction names generalizing p with
    | nil => exact ⟨0, p, Nat.zero_le _, .done p, h⟩
    | cons name rest ih =>
      rw [List.cons_append] at h
      obtain ⟨m, hs⟩ | ⟨link, hl⟩ | ⟨e, he⟩ | ⟨hr, directory, hv⟩ :=
        advance_cons_cases fs purpose p name (rest ++ back)
      · rw [walk_step hp hs] at h
        obtain ⟨used, q, hu, hq, hrest⟩ := ih h
        exact ⟨used, q, hu, .step hs hq, hrest⟩
      · cases links with
        | zero =>
          rw [walk_linkAt_zero hp hl] at h
          cases h
        | succ links =>
          rw [walk_linkAt hp hl] at h
          obtain ⟨used, q, hu, hq, hrest⟩ := outer links (Nat.lt_succ_self links) h
          refine ⟨used + 1, q, Nat.succ_le_succ hu, .link hl hq, ?_⟩
          rwa [Nat.add_sub_add_right]
      · rw [walk, he] at h
        cases h
      · rw [walk, hv] at h
        obtain ⟨q, rfl⟩ := hb (List.append_eq_nil_iff.mp hr).2
        cases h

-- ---------------------------------------------------------------------------
-- The last name
-- ---------------------------------------------------------------------------

def named (fs : FileSystem) (p : Place) (name : String) : Target :=
  if fs.entries (name :: p.location) = none then .vacant p.location name
  else .found ⟨name :: p.location, 0⟩

theorem directory_of_walk (hn : Path.Plain name) {target : Target}
    (h : fs.walk purpose links p [name] = .ok target) :
    fs.isDirectory p = true ∧ p.unlinked = 0 := by
  rw [walk, advance, if_neg hn.proper, if_neg hn.not_up] at h
  by_cases hp : fs.isDirectory p = true
  · by_cases hu : p.unlinked = 0
    · exact ⟨hp, hu⟩
    · simp [hp, hu] at h
  · simp [hp] at h

theorem walk_name (hn : Path.Plain name) (hp : fs.isDirectory p = true) (hu : p.unlinked = 0)
    (hl : purpose ≠ .entry → ∀ link, fs.entries (name :: p.location) ≠ some (.link link)) :
    fs.walk purpose links p [name] = .ok (fs.named p name) := by
  have hadvance : fs.advance purpose p [name] = .ok (.target (fs.named p name)) := by
    rw [advance, if_neg (by simp [hp]), if_neg hn.proper, if_neg hn.not_up, if_neg (by simp),
      if_neg (by simp [hu]), if_neg (Nat.not_lt.mpr hn.size), named]
    cases he : fs.entries (name :: p.location) with
    | none => rfl
    | some entry =>
      cases entry with
      | directory | file => rfl
      | link target =>
        by_cases hpurpose : purpose = .entry
        · simp [hpurpose]
        · exact absurd he (hl hpurpose target)
  rw [walk, hadvance]

theorem entries_of_advance_vacant {directory : Location}
    (h : fs.advance purpose p names = .ok (.target (.vacant directory name))) :
    fs.entries (name :: directory) = none := by
  induction names generalizing p with
  | nil => cases h
  | cons first rest ih =>
    rw [advance] at h
    repeat' split at h
    all_goals first
      | exact ih h
      | cases h
    assumption

theorem entries_of_walk_vacant {directory : Location}
    (h : fs.walk purpose links p names = .ok (.vacant directory name)) :
    fs.entries (name :: directory) = none := by
  fun_induction walk fs purpose links p names with
  | case1 => cases h
  | case2 =>
    next ha =>
    cases h
    exact entries_of_advance_vacant ha
  | case3 => cases h
  | case4 => next ih => exact ih h

-- ---------------------------------------------------------------------------
-- Files that are written
-- ---------------------------------------------------------------------------

theorem isDirectory_iff : fs.isDirectory p = true ↔
    (p.unlinked ≠ 0 ∨ p.location = []) ∨ fs.entries p.location = some .directory := by
  rw [isDirectory, decide_eq_true_eq, entryAt]
  split
  · next hr => simp [hr]
  · next hr => simp [hr]

/-- What was there is there again, but for what is in files. -/
structure Keeps (fs after : FileSystem) : Prop where
  directory {location : Location} (h : fs.entries location = some .directory) :
    after.entries location = some .directory
  file {location : Location} {content : Bytes} {runnable : Bool}
    (h : fs.entries location = some (.file content runnable)) :
    ∃ content runnable, after.entries location = some (.file content runnable)
  link {location : Location} {target : String}
    (h : fs.entries location = some (.link target)) : after.entries location = some (.link target)

theorem keeps_rewrite {location : Location} (content : Bytes) (runnable : Bool)
    (h : fs.entries location = none ∨
      ∃ content runnable, fs.entries location = some (.file content runnable)) :
    fs.Keeps (fs.rewrite location (.file content runnable)) := by
  refine ⟨fun {other} ho => ?_, fun {other _ _} ho => ?_, fun {other _} ho => ?_⟩
  all_goals
    rw [entries_rewrite]
    split
    next ht =>
      rw [← ht.entries_eq, ho] at h
      simp at h ⊢
    next => first
      | exact ho
      | exact ⟨_, _, ho⟩

variable {after : FileSystem}

theorem Keeps.isDirectory (h : fs.Keeps after) (hp : fs.isDirectory p = true) :
    after.isDirectory p = true := by
  rw [isDirectory_iff] at hp ⊢
  exact hp.imp_right h.directory

theorem Step.keeps (h : fs.Keeps after) (hs : fs.Step p name q) : after.Step p name q := by
  cases hs with
  | here hp hn => exact .here (h.isDirectory hp) hn
  | up hp => exact .up (h.isDirectory hp)
  | @down _ entry hp hn hd hu hs he hl =>
    cases entry with
    | directory => exact .down (h.isDirectory hp) hn hd hu hs (h.directory he) (by simp)
    | file =>
      obtain ⟨content, runnable, hfile⟩ := h.file he
      exact .down (h.isDirectory hp) hn hd hu hs hfile (by simp)
    | link target => exact absurd rfl (hl target)

theorem LinkAt.keeps (h : fs.Keeps after) (hl : fs.LinkAt p name target) :
    after.LinkAt p name target :=
  ⟨h.isDirectory hl.directory, hl.proper, hl.down, hl.linked, hl.size, h.link hl.entry⟩

theorem Reaches.keeps (h : fs.Keeps after) (hr : fs.Reaches used p names q) :
    after.Reaches used p names q := by
  induction hr with
  | done p => exact .done p
  | step hs _ ih => exact .step (hs.keeps h) ih
  | link hl _ ih => exact .link (hl.keeps h) ih

end FileSystem

-- ---------------------------------------------------------------------------
-- Names in one directory
-- ---------------------------------------------------------------------------

namespace World

def origin (w : World) (path : String) : Place :=
  if Path.isAbsolute path then .root else w.workingDirectory

structure Leads (w : World) (path : String) (p : Place) (entry : Entry) : Prop where
  ne_empty : path ≠ ""
  fits : Path.Fits path
  reaches : ∃ used ≤ FileSystem.maxLinks, w.files.Reaches used (w.origin path) (Path.pieces path) p
  entry : w.files.entryAt p = some entry

theorem lookup_eq_ok_iff_leads {w : World} {path : String} {p : Place} {entry : Entry} :
    w.lookup path = .ok (p, entry) ↔ w.Leads path p entry := by
  rw [lookup_eq_ok_iff, resolve, FileSystem.resolve_eq_ok_iff]
  constructor
  · rintro ⟨⟨hz, hne, hs, h⟩, he⟩
    rw [← List.append_nil (Path.pieces path)] at h
    obtain ⟨used, q, hu, hr, hq⟩ :=
      FileSystem.exists_reaches (FileSystem.passes_inspection []) (fun _ => ⟨p, rfl⟩) h
    rw [FileSystem.walk_nil] at hq
    cases hq
    exact ⟨hne, ⟨hs, hz⟩, ⟨used, hu, hr⟩, he⟩
  · rintro ⟨hne, ⟨hs, hz⟩, ⟨used, hu, hr⟩, he⟩
    have h : w.files.walk .inspection FileSystem.maxLinks (w.origin path)
        (Path.pieces path ++ []) = .ok (.found p) := by
      rw [hr.walk_append (FileSystem.passes_inspection []) hu, FileSystem.walk_nil]
    rw [List.append_nil] at h
    exact ⟨⟨hz, hne, hs, h⟩, he⟩

/-- The place where the names are looked up that are joined to the path of a directory. -/
structure Site (w : World) (directory : String) (used : Nat) (p : Place) : Prop where
  le : used ≤ FileSystem.maxLinks
  reaches : w.files.Reaches used (w.origin directory) (Path.leading directory) p

variable {w : World} {purpose : Purpose} {directory file : String} {used : Nat} {p : Place}
  {target : Target}

theorem resolve_join_iff (hf : Path.IsName file) :
    w.resolve purpose (Path.join directory file) = .ok target ↔
      Path.Fits (Path.join directory file) ∧
        w.files.walk purpose FileSystem.maxLinks (w.origin directory)
          (Path.leading directory ++ [file]) = .ok target := by
  have ha := hf.isAbsolute_eq_false
  have hne : Path.join directory file ≠ "" := by
    rw [Path.join_eq_stem_append ha]
    simp [hf.ne_empty]
  rw [resolve, FileSystem.resolve_eq_ok_iff, Path.isAbsolute_join ha, Path.pieces_join ha,
    Path.pieces_of_not_mem hf.separator_not_mem]
  constructor
  · rintro ⟨hz, -, hs, h⟩
    exact ⟨⟨hs, hz⟩, h⟩
  · rintro ⟨⟨hs, hz⟩, h⟩
    exact ⟨hz, hne, hs, h⟩

theorem exists_site (hf : Path.IsName file)
    (h : w.resolve purpose (Path.join directory file) = .ok target) :
    ∃ used p, w.Site directory used p := by
  obtain ⟨-, h⟩ := (resolve_join_iff hf).mp h
  obtain ⟨used, p, hu, hr, -⟩ :=
    FileSystem.exists_reaches (FileSystem.passes_name hf) (fun hb => by cases hb) h
  exact ⟨used, p, hu, hr⟩

theorem Site.resolve_iff (hs : w.Site directory used p) (hf : Path.IsName file) :
    w.resolve purpose (Path.join directory file) = .ok target ↔
      Path.Fits (Path.join directory file) ∧
        w.files.walk purpose (FileSystem.maxLinks - used) p [file] = .ok target := by
  rw [resolve_join_iff hf, hs.reaches.walk_append (FileSystem.passes_name hf) hs.le]

theorem Site.keeps {after : FileSystem} (h : w.files.Keeps after) (hs : w.Site directory used p) :
    World.Site { w with files := after } directory used p :=
  ⟨hs.le, hs.reaches.keeps h⟩

end World
end Xref
