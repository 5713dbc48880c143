import Xref.Proofs.Directory
import Xref.Proofs.Resolution
import Xref.Proofs.Words

/-!
# The check of a directory

A text stands for one path, and there is one verdict on a path: it is the first of the checks that
fails, or it accepts the path as it is. Setting a directory and starting with one differ only in
what is told.

Which error a lookup gives is the concern of the file system: here it is only told apart whether
nothing was found.
-/

namespace Xref

-- ---------------------------------------------------------------------------
-- What a text stands for
-- ---------------------------------------------------------------------------

open Text (Blanks Tight)

theorem Text.Blanks.trimChars_eq_nil {cs : List Char} (h : Blanks cs) : trimChars cs = [] := by
  rw [trimChars, List.dropWhile_eq_nil_iff.mpr h]
  rfl

inductive Expands (home : String) : List Char → String → Prop
  | home : Expands home ['~'] home
  | below (rest : List Char) :
    Expands home ('~' :: '/' :: rest) (home ++ String.ofList ('/' :: rest))
  | name {c : Char} (hc : c ≠ '/') (rest : List Char) :
    Expands home ('~' :: c :: rest) (home ++ "/" ++ String.ofList (c :: rest))
  | plain {core : List Char} (hc : core.head? ≠ some '~') :
    Expands home core (String.ofList core)

theorem expands_iff {home path : String} {core : List Char} :
    Expands home core path ↔ path = Navigator.expandHome home (String.ofList core) := by
  rw [Navigator.expandHome, String.toList_ofList]
  constructor
  · intro h
    cases h with
    | home => rfl
    | below rest => rfl
    | name hc rest =>
      split
      next heq => cases heq
      next heq => exact absurd (List.cons.inj (List.cons.inj heq).2).1 hc
      next heq => rw [(List.cons.inj heq).2]
      next hne => exact absurd rfl (hne _)
    | plain hc =>
      split
      next => exact absurd rfl hc
      next => exact absurd rfl hc
      next => exact absurd rfl hc
      next => rfl
  · rintro rfl
    split
    next => exact .home
    next rest => exact .below rest
    next rest hne hs =>
      cases rest with
      | nil => exact absurd rfl hne
      | cons c more => exact .name (fun hc => hs more (by rw [hc])) more
    next hne =>
      refine .plain fun hh => ?_
      obtain ⟨more, rfl⟩ := List.head?_eq_some_iff.mp hh
      exact hne more rfl

inductive Stands (home text path : String) : Prop
  | intro {before core after : List Char} (hb : Blanks before) (ha : Blanks after)
    (ht : text.toList = before ++ core ++ after) (hc : core = [] ∨ Tight core)
    (hp : Expands home core path) : Stands home text path

theorem stands_iff {home text path : String} :
    Stands home text path ↔ path = Navigator.expandHome home (Text.trim text) := by
  constructor
  · rintro @⟨before, core, after, hb, ha, ht, hc, hp⟩
    have hcore : Text.trimChars text.toList = core := by
      obtain rfl | hc := hc
      · have hblank : Blanks text.toList := by
          rw [ht, List.append_nil]
          exact List.forall_mem_append.mpr ⟨hb, ha⟩
        exact hblank.trimChars_eq_nil
      · rw [ht, hc.trimChars_append hb ha]
    rw [Text.trim, hcore]
    exact expands_iff.mp hp
  · intro hp
    obtain ⟨before, after, hb, ha, ht, hc⟩ := Text.exists_trimChars text.toList
    exact .intro hb ha ht hc (expands_iff.mpr hp)

-- ---------------------------------------------------------------------------
-- What is at a path
-- ---------------------------------------------------------------------------

namespace World

variable {w : World} {path : String} {e : SystemError}

def HasDirectory (w : World) (path : String) : Prop := ∃ p, w.Leads path p .directory

/-- Links are followed, so that what is no directory is a file. -/
def HasFile (w : World) (path : String) : Prop :=
  ∃ p entry, w.Leads path p entry ∧ entry ≠ .directory

theorem stat_eq_error_iff : w.stat path = .error e ↔ w.lookup path = .error e := by
  unfold stat
  split
  · next h => simp [h]
  · next h => simp [h]
  · next h => simp [h]

theorem stat_eq_directory_iff : w.stat path = .ok .directory ↔ w.HasDirectory path := by
  simp only [HasDirectory, ← lookup_eq_ok_iff_leads]
  unfold stat
  split
  · next h => simp [h]
  · next h => simp [h]
  · next p entry hne h => simpa [h] using hne

theorem stat_eq_regular_iff : w.stat path = .ok .regular ↔ w.HasFile path := by
  simp only [HasFile, ← lookup_eq_ok_iff_leads]
  unfold stat
  split
  · next h => simp [h]
  · next h => simp [h]
  · next p entry hne h => simpa [h] using hne

theorem isFile_iff : w.isFile path = true ↔ w.HasFile path := by
  rw [← stat_eq_regular_iff]
  unfold isFile
  split
  · next h => simp [h]
  · next hne => simpa using hne

end World

-- ---------------------------------------------------------------------------
-- Verdicts
-- ---------------------------------------------------------------------------

/-- What the checks of a path come to. All but the first check tell the path. -/
inductive Verdict (locator : Locator) (w : World) (path : String) :
    Except DirectoryError String → Prop
  | notAbsolute (ha : Path.isAbsolute path = false) : Verdict locator w path (.error .notAbsolute)
  | doesNotExist (ha : Path.isAbsolute path = true) (hl : w.lookup path = .error .notFound) :
    Verdict locator w path (.error (.doesNotExist path))
  | unreadable {e : SystemError} (ha : Path.isAbsolute path = true)
    (hl : w.lookup path = .error e) (he : e ≠ .notFound) :
    Verdict locator w path (.error (.unreadable path e))
  | notADirectory (ha : Path.isAbsolute path = true) (hf : w.HasFile path) :
    Verdict locator w path (.error (.notADirectory path))
  | noDatabase (ha : Path.isAbsolute path = true) (hd : w.HasDirectory path)
    (hn : ¬w.HasFile (locator.path path)) : Verdict locator w path (.error (.noDatabase path))
  | accepted (ha : Path.isAbsolute path = true) (hd : w.HasDirectory path)
    (hf : w.HasFile (locator.path path)) : Verdict locator w path (.ok path)

namespace Navigator

variable {locator : Locator} {w : World} {text path : String}
  {verdict : Except DirectoryError String}

theorem verdict_checkDirectory (locator : Locator) (w : World) (text : String) :
    Verdict locator w (expandHome w.home (Text.trim text)) (checkDirectory locator w text) := by
  simp only [checkDirectory]
  generalize expandHome w.home (Text.trim text) = path
  split
  · next ha => exact .notAbsolute (by simpa using ha)
  next ha =>
  have ha : Path.isAbsolute path = true := by simpa using ha
  split
  · next e hs =>
    have hl := World.stat_eq_error_iff.mp hs
    split
    · next he => exact .doesNotExist ha (he ▸ hl)
    · next he => exact .unreadable ha hl he
  · next hs => exact .notADirectory ha (World.stat_eq_regular_iff.mp hs)
  · next hs =>
    have hd := World.stat_eq_directory_iff.mp hs
    split
    · next hp => exact .accepted ha hd (World.isFile_iff.mp hp)
    · next hp => exact .noDatabase ha hd fun hf => hp (World.isFile_iff.mpr hf)

/-- There is no other verdict: the checks are made in this order. -/
theorem verdict_iff :
    Verdict locator w (expandHome w.home (Text.trim text)) verdict ↔
      verdict = checkDirectory locator w text := by
  constructor
  · intro h
    simp only [checkDirectory]
    generalize expandHome w.home (Text.trim text) = path at h
    cases h with
    | notAbsolute ha => simp [ha]
    | doesNotExist ha hl => simp [ha, World.stat_eq_error_iff.mpr hl]
    | unreadable ha hl he => simp [ha, World.stat_eq_error_iff.mpr hl, he]
    | notADirectory ha hf => simp [ha, World.stat_eq_regular_iff.mpr hf]
    | noDatabase ha hd hn =>
      have hp : locator.present w path = false := Bool.eq_false_iff.mpr (mt World.isFile_iff.mp hn)
      simp [ha, World.stat_eq_directory_iff.mpr hd, hp]
    | accepted ha hd hf =>
      have hp : locator.present w path = true := World.isFile_iff.mpr hf
      simp [ha, World.stat_eq_directory_iff.mpr hd, hp]
  · intro h
    rw [h]
    exact verdict_checkDirectory locator w text

theorem verdict_ok_iff {directory : String} :
    Verdict locator w path (.ok directory) ↔ directory = path ∧ Path.isAbsolute path = true ∧
      w.HasDirectory path ∧ w.HasFile (locator.path path) := by
  constructor
  · intro h
    cases h with
    | accepted ha hd hf => exact ⟨rfl, ha, hd, hf⟩
  · rintro ⟨rfl, ha, hd, hf⟩
    exact .accepted ha hd hf

theorem seed_of_ok {nav : Navigator} {directory : String}
    (hd : checkDirectory nav.locator w text = .ok directory) :
    nav.seed w text = .ok { nav with directory := some directory } := by
  unfold seed
  rw [hd]

theorem seed_of_error {nav : Navigator} {e : DirectoryError}
    (hd : checkDirectory nav.locator w text = .error e) :
    nav.seed w text = .error (.directory e) := by
  unfold seed
  rw [hd]

theorem setDirectory_of_error {nav : Navigator} {e : DirectoryError}
    (hd : checkDirectory nav.locator w text = .error e) :
    nav.setDirectory w text = { result := .error (.directory e), navigator := nav } := by
  unfold setDirectory
  rw [hd]

/-- A text stands for one path, and the path has one verdict. A directory is set, or started with,
just when the path is absolute and leads to a directory that has the database as a file; what is
remembered then is the path. Otherwise the first check that fails is the error of both, and nothing
has changed or been told. -/
theorem directory_verdict (nav : Navigator) (w : World) (text : String) :
    ∃ path verdict,
      (∀ other, Stands w.home text other ↔ other = path) ∧
      (∀ other, Verdict nav.locator w path other ↔ other = verdict) ∧
      (verdict = .ok path ↔ Path.isAbsolute path = true ∧ w.HasDirectory path ∧
        w.HasFile (Path.join path nav.locator.fileName)) ∧
      (∀ directory, verdict = .ok directory → directory = path ∧
        nav.setDirectory w text =
          { result := .ok path
            events := [announcement path]
            navigator := { nav with directory := some path } } ∧
        nav.seed w text = .ok { nav with directory := some path }) ∧
      ∀ e, verdict = .error e →
        nav.setDirectory w text = { result := .error (.directory e), navigator := nav } ∧
          nav.seed w text = .error (.directory e) := by
  refine ⟨expandHome w.home (Text.trim text), checkDirectory nav.locator w text,
    fun _ => stands_iff, fun _ => verdict_iff, ?_, fun directory hd => ?_, fun e he => ?_⟩
  · rw [eq_comm, ← verdict_iff, verdict_ok_iff]
    exact and_iff_right rfl
  · have hpath := (verdict_ok_iff.mp (verdict_iff.mpr hd.symm)).1
    rw [hpath] at hd
    exact ⟨hpath, setDirectory_eq_ok hd, seed_of_ok hd⟩
  · exact ⟨setDirectory_of_error he, seed_of_error he⟩

end Navigator

def Sample.homely : World := { world with home := "/p" }

namespace Navigator

theorem directory_verdict_at_home :
    Sample.fresh.setDirectory Sample.homely "\t~ " =
        { result := .ok "/p"
          events := [announcement "/p"]
          navigator := { Sample.fresh with directory := some "/p" } } ∧
      Sample.fresh.seed Sample.homely "~cscope.out" =
        .error (.directory (.notADirectory "/p/cscope.out")) := by
  have hhome : Stands "/p" "\t~ " "/p" :=
    @Stands.intro _ _ _ ['\t'] ['~'] [' '] (by decide) (by decide) (by decide)
      (.inr ⟨⟨'~', by decide⟩, ⟨'~', by decide⟩⟩) .home
  have hname : Stands "/p" "~cscope.out" "/p/cscope.out" :=
    @Stands.intro _ _ _ [] "~cscope.out".toList [] (by decide) (by decide) (by decide)
      (.inr ⟨⟨'~', by decide⟩, ⟨'t', by decide⟩⟩) (.name (by decide) "scope.out".toList)
  have hp : Verdict {} Sample.homely "/p" (.ok "/p") := by
    refine .accepted (by decide) (World.stat_eq_directory_iff.mp ?_) (World.isFile_iff.mp ?_)
    · decide +kernel
    · decide +kernel
  have hfile : Verdict {} Sample.homely "/p/cscope.out"
      (.error (.notADirectory "/p/cscope.out")) := by
    refine .notADirectory (by decide) (World.stat_eq_regular_iff.mp ?_)
    decide +kernel
  obtain ⟨path, verdict, hstands, hverdict, -, hset, -⟩ :=
    directory_verdict Sample.fresh Sample.homely "\t~ "
  obtain ⟨name, other, hnames, hothers, -, -, hrefused⟩ :=
    directory_verdict Sample.fresh Sample.homely "~cscope.out"
  obtain rfl := (hstands _).mp hhome
  obtain rfl := (hnames _).mp hname
  obtain ⟨-, haccepted, -⟩ := hset _ ((hverdict _).mp hp).symm
  exact ⟨haccepted, (hrefused _ ((hothers _).mp hfile).symm).2⟩

end Navigator
end Xref
