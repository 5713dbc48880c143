import Xref.Config
import Xref.Proofs.Changes

/-!
# A new file of settings

The defaults are written under a temporary name, which is then the name of the file. A link that has
the temporary name is followed by the first step and moved by the second, and a file that has it may
have more names. So what had the temporary name is lost, and what it led to is written over; apart
from this the file is all that is new. A creation that fails before the temporary file is opened
changes nothing, and one that fails later leaves as much in that file as was written.

It is not said what becomes of a link that leads nowhere and has the name of the file.
-/

namespace Xref
namespace Config

-- ---------------------------------------------------------------------------
-- The names
-- ---------------------------------------------------------------------------

def defaults : Bytes := Text.Utf8.encode (Json.pretty "" ({} : Config).members)

theorem plain_fileName : Path.Plain fileName :=
  ⟨⟨by decide, by decide, by decide⟩, by decide, by decide⟩

theorem plain_temporaryName : Path.Plain temporaryName :=
  ⟨⟨by decide, by decide, by decide⟩, by decide, by decide⟩

theorem fileName_ne_temporaryName (place : Location) :
    fileName :: place ≠ temporaryName :: place := by
  simp [temporaryName, fileName]

variable {w : World} {directory : String} {place : Location} {file : World.OpenFile}

/-- A creation that has opened the temporary file, with nothing found by the name of the file. -/
structure Begun (w : World) (directory : String) (place : Location) (file : World.OpenFile) :
    Prop where
  missing : ∀ found, w.lookup (Path.join directory fileName) ≠ .ok found
  opened : w.openFile (Path.join directory temporaryName) = .ok file
  opens : w.Opens directory temporaryName place file

namespace Begun

variable (h : Begun w directory place file)
include h

theorem exists_link (hf : Path.Fits (Path.join directory fileName)) {entry : Entry}
    (he : w.files.entries (fileName :: place) = some entry) : ∃ link, entry = .link link := by
  obtain ⟨used, hs⟩ := h.opens.site
  cases entry with
  | link link => exact ⟨link, rfl⟩
  | directory | file =>
    exact absurd (hs.lookup_eq_ok h.opens.isDirectory plain_fileName hf he (by simp))
      (h.missing _)

theorem not_twins (hf : Path.Fits (Path.join directory fileName))
    (hl : ∀ link, w.files.entries (temporaryName :: place) ≠ some (.link link)) :
    ¬w.files.Twins (temporaryName :: place) (fileName :: place) := by
  intro ht
  cases he : w.files.entries (fileName :: place) with
  | none =>
    have hnone := ht.entries_eq.symm.trans he
    exact fileName_ne_temporaryName place (ht.eq_of_none hnone)
  | some entry =>
    obtain ⟨link, rfl⟩ := h.exists_link hf he
    exact hl link (ht.entries_eq.symm.trans he)

theorem rename_fill (hf : Path.Fits (Path.join directory fileName)) :
    (file.fill w defaults).rename (Path.join directory temporaryName)
        (Path.join directory fileName) =
      (file.fill w defaults).move (temporaryName :: place) (fileName :: place) := by
  obtain ⟨entry, he⟩ := h.opens.exists_entry defaults
  have hsource := (h.opens.resolve_entry defaults plain_temporaryName h.opens.fits).2
  rw [FileSystem.named_of_entry he] at hsource
  have htarget := (h.opens.resolve_entry defaults plain_fileName hf).2
  have hfree : ∀ q, (file.fill w defaults).files.named ⟨place, 0⟩ fileName = .found q →
      (file.fill w defaults).files.isDirectory q = false := by
    intro q hq
    unfold FileSystem.named at hq
    split at hq
    · cases hq
    · cases hq
      refine Bool.eq_false_iff.mpr fun hd => ?_
      rw [FileSystem.isDirectory_iff, World.entries_fill] at hd
      split at hd
      · simp at hd
      · obtain ⟨link, hl⟩ := h.exists_link hf (by simpa using hd)
        cases hl
  rw [World.rename_eq_move hsource htarget hfree, FileSystem.location_named]

theorem rename_stuck (hf : ¬Path.Fits (Path.join directory fileName)) :
    ∃ cause, (file.fill w defaults).rename (Path.join directory temporaryName)
      (Path.join directory fileName) = .error cause := by
  have hsource := (h.opens.resolve_entry defaults plain_temporaryName h.opens.fits).2
  cases hr : (file.fill w defaults).resolve .entry (Path.join directory fileName) with
  | ok target =>
    exact absurd ((World.resolve_join_iff plain_fileName.toIsName).mp hr).1 hf
  | error cause =>
    refine ⟨cause, ?_⟩
    rw [World.rename, hsource, hr]
    rfl

end Begun

-- ---------------------------------------------------------------------------
-- The ways to end
-- ---------------------------------------------------------------------------

/-- The files of a creation that has come to its end. -/
def finished (w : World) (place : Location) (file : World.OpenFile) : FileSystem :=
  (file.fill w defaults).files.move (temporaryName :: place) (fileName :: place)

/-- How a creation ends, step by step. The last step gets stuck where the path of the file does not
fit, or where the system refuses the move. -/
inductive Creation (w : World) (directory : String) : Except ConfigError String × World → Prop
  | refused {found : Place × Entry} (hl : w.lookup (Path.join directory fileName) = .ok found) :
    Creation w directory (.error (.alreadyExists (Path.join directory fileName)), w)
  | unopened {cause : SystemError}
    (ho : w.openFile (Path.join directory temporaryName) = .error cause) :
    Creation w directory (.error (.notWritten cause), w)
  | cut {place : Location} {file : World.OpenFile} {room : Nat} {cause : SystemError}
    (h : Begun w directory place file) (hr : room < defaults.length)
    (hw : w.writeFile (Path.join directory temporaryName) defaults =
      .error ⟨cause, file.fill w (defaults.take room)⟩) :
    Creation w directory (.error (.notWritten cause), file.fill w (defaults.take room))
  | stuck {place : Location} {file : World.OpenFile} {cause : SystemError}
    (h : Begun w directory place file)
    (hm : Path.Fits (Path.join directory fileName) →
      w.files.limits.moving (temporaryName :: place) (fileName :: place) = some cause) :
    Creation w directory (.error (.notRenamed cause), file.fill w defaults)
  | created {place : Location} {file : World.OpenFile} (h : Begun w directory place file)
    (hw : w.writeFile (Path.join directory temporaryName) defaults = .ok (file.fill w defaults))
    (hf : Path.Fits (Path.join directory fileName))
    (hm : w.files.limits.moving (temporaryName :: place) (fileName :: place) = none) :
    Creation w directory
      (.ok (Path.join directory fileName), { w with files := finished w place file })

theorem create_of_missing {e : SystemError}
    (hs : w.stat (Path.join directory fileName) = .error e) :
    create w directory =
      match w.writeFile (Path.join directory temporaryName) defaults with
      | .error stopped => (.error (.notWritten stopped.cause), stopped.world)
      | .ok written =>
        match written.rename (Path.join directory temporaryName)
            (Path.join directory fileName) with
        | .error cause => (.error (.notRenamed cause), written)
        | .ok renamed => (.ok (Path.join directory fileName), renamed) := by
  rw [create, hs]
  rfl

theorem creation (w : World) (directory : String) :
    Creation w directory (create w directory) := by
  cases hs : w.stat (Path.join directory fileName) with
  | ok type =>
    obtain ⟨found, hl⟩ := World.lookup_of_stat_ok hs
    rw [create, hs]
    exact .refused hl
  | error e =>
    rw [create_of_missing hs]
    cases ho : w.openFile (Path.join directory temporaryName) with
    | error cause =>
      rw [World.writeFile, ho]
      exact .unopened ho
    | ok file =>
      obtain ⟨place, hopens⟩ := World.exists_opens plain_temporaryName ho
      have h : Begun w directory place file := ⟨World.lookup_of_stat_error hs, ho, hopens⟩
      obtain ⟨room, cause, -, hr, hw⟩ | hw := World.writeFile_of_openFile ho defaults
      · rw [hw]
        exact .cut h hr hw
      rw [hw]
      dsimp only
      by_cases hf : Path.Fits (Path.join directory fileName)
      · rw [h.rename_fill hf, World.move_eq, World.limits_fill]
        cases hm : w.files.limits.moving (temporaryName :: place) (fileName :: place) with
        | none => exact .created h hw hf hm
        | some cause => exact .stuck h fun _ => hm
      · obtain ⟨cause, hc⟩ := h.rename_stuck hf
        rw [hc]
        exact .stuck h fun hfits => absurd hfits hf

-- ---------------------------------------------------------------------------
-- What is left
-- ---------------------------------------------------------------------------

/-- Only what the temporary name led to differs: it is a file now that holds a content under each
of its names. -/
structure Unfinished (w : World) (directory : String) (content : Bytes) (after : World) :
    Prop where
  missing : ∀ found, w.lookup (Path.join directory fileName) ≠ .ok found
  files : after = { w with files := after.files }
  written : ∃ place file,
    w.locate .entry (Path.join directory temporaryName) = .ok (temporaryName :: place) ∧
      w.openFile (Path.join directory temporaryName) = .ok file ∧ w.Fresh file ∧
      (file.location = temporaryName :: place ∨
        ∃ link, w.files.entries (temporaryName :: place) = some (.link link)) ∧
      ∀ other, after.files.entries other =
        if w.files.Twins file.location other then some (.file content file.runnable)
        else w.files.entries other

/-- The file has its own name and nothing has the temporary one. All else is as it was, but for
what the temporary name led to. -/
structure Created (w : World) (directory : String) (place : Location) (file : World.OpenFile)
    (after : World) : Prop where
  named : w.locate .entry (Path.join directory fileName) = .ok (fileName :: place)
  temporary :
    w.locate .entry (Path.join directory temporaryName) = .ok (temporaryName :: place)
  missing : ∀ found, w.lookup (Path.join directory fileName) ≠ .ok found
  free : ∀ entry, w.files.entries (fileName :: place) = some entry → ∃ link, entry = .link link
  files : after = { w with files := after.files }
  opened : w.openFile (Path.join directory temporaryName) = .ok file ∧ w.Fresh file
  own : file.location = temporaryName :: place ∨
    ∃ link, w.files.entries (temporaryName :: place) = some (.link link)
  moved : ¬w.files.Twins (temporaryName :: place) (fileName :: place) →
    after.files.entries (temporaryName :: place) = none
  others : ∀ other, other ≠ fileName :: place → other ≠ temporaryName :: place →
    after.files.entries other =
      if w.files.Twins file.location other then some (.file defaults file.runnable)
      else w.files.entries other
  unlinked : (∀ link, w.files.entries (temporaryName :: place) ≠ some (.link link)) →
    after.files.entries (fileName :: place) = some (.file defaults file.runnable) ∧
      after.files.entries (temporaryName :: place) = none
  alone : w.files.entries (temporaryName :: place) = none →
    after.files.entries (fileName :: place) = some (.file defaults false) ∧
      ∀ other, other ≠ fileName :: place → after.files.entries other = w.files.entries other

theorem entries_finished (ht : ¬w.files.Twins (temporaryName :: place) (fileName :: place))
    (other : Location) :
    (finished w place file).entries other =
      if other = fileName :: place then
        (file.fill w defaults).files.entries (temporaryName :: place)
      else if other = temporaryName :: place then none
      else (file.fill w defaults).files.entries other :=
  FileSystem.entries_move (mt (World.twins_fill ..).mp ht) other

theorem entries_finished_of_ne {other : Location} (hfile : other ≠ fileName :: place)
    (htemporary : other ≠ temporaryName :: place) :
    (finished w place file).entries other =
      if w.files.Twins file.location other then some (.file defaults file.runnable)
      else w.files.entries other := by
  rw [finished, FileSystem.entries_move_of_ne _ htemporary hfile, World.entries_fill]

theorem entries_finished_temporary
    (ht : ¬w.files.Twins (temporaryName :: place) (fileName :: place)) :
    (finished w place file).entries (temporaryName :: place) = none := by
  rw [entries_finished ht, if_neg (fileName_ne_temporaryName place).symm, if_pos rfl]

namespace Begun

variable (h : Begun w directory place file)
include h

theorem unfinished (content : Bytes) :
    Unfinished w directory content (file.fill w content) where
  missing := h.missing
  files := rfl
  written := ⟨place, file, h.opens.locate_entry plain_temporaryName h.opens.fits, h.opened,
    h.opens.fresh, h.opens.own, World.entries_fill file w content⟩

theorem entries_file (hf : Path.Fits (Path.join directory fileName))
    (hl : ∀ link, w.files.entries (temporaryName :: place) ≠ some (.link link)) :
    file.location = temporaryName :: place ∧
      (finished w place file).entries (fileName :: place) =
        some (.file defaults file.runnable) := by
  have hown := h.opens.own.resolve_right fun ⟨link, he⟩ => hl link he
  refine ⟨hown, ?_⟩
  rw [entries_finished (h.not_twins hf hl), if_pos rfl, World.entries_fill,
    if_pos (.inl hown.symm)]

theorem entries_alone (hf : Path.Fits (Path.join directory fileName))
    (hnone : w.files.entries (temporaryName :: place) = none) :
    (finished w place file).entries (fileName :: place) = some (.file defaults false) ∧
      ∀ other, other ≠ fileName :: place →
        (finished w place file).entries other = w.files.entries other := by
  have hl : ∀ link, w.files.entries (temporaryName :: place) ≠ some (.link link) := by
    simp [hnone]
  obtain ⟨hown, hfile⟩ := h.entries_file hf hl
  have hfree : w.files.entries file.location = none := hown ▸ hnone
  refine ⟨h.opens.fresh.runnable_of_none hfree ▸ hfile, fun other hother => ?_⟩
  by_cases ht : other = temporaryName :: place
  · subst ht
    exact (entries_finished_temporary (h.not_twins hf hl)).trans hnone.symm
  · have hsingle : ¬w.files.Twins file.location other := fun htwins =>
      ht ((htwins.eq_of_none hfree).trans hown)
    rw [entries_finished_of_ne hother ht, if_neg hsingle]

theorem created (hf : Path.Fits (Path.join directory fileName)) :
    Created w directory place file { w with files := finished w place file } where
  named := h.opens.locate_entry plain_fileName hf
  temporary := h.opens.locate_entry plain_temporaryName h.opens.fits
  missing := h.missing
  free _ := h.exists_link hf
  files := rfl
  opened := ⟨h.opened, h.opens.fresh⟩
  own := h.opens.own
  moved := entries_finished_temporary
  others _ := entries_finished_of_ne
  unlinked hl := ⟨(h.entries_file hf hl).2, entries_finished_temporary (h.not_twins hf hl)⟩
  alone := h.entries_alone hf

end Begun

end Config

namespace Sample

def occupied : World :=
  world.setEntry [Config.temporaryName, "p"] (some (.file (Text.Utf8.encode "mine\n") false))

def full : World :=
  { occupied with
    files := { occupied.files with limits := { writing := fun _ => some (1, .code 28) } } }

end Sample

namespace Config

end Config
end Xref
