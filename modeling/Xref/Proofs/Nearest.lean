import Xref.Proofs.Pieces
import Xref.Proofs.Run

/-!
# The nearest directory with the database

The upward search is a loop: a path is probed, and then the one above it, until one holds the
database or there is none above. The loop ends, and what it finds is the longest of all paths that
enclose the start and hold the database. It is found again from every path on the way to it.
Enclosing is a matter of names, and ".." is a name like any other here: what such a path leads to
is not said.
-/

namespace Xref

namespace Path.Absolute

variable {path outer middle inner other : Absolute}

def parent? (path : Absolute) : Option Absolute :=
  match path.names with
  | [] => none
  | _ :: above => some (path.upTo above)

/-- The names of the one begin those of the other, behind the same separators; but a root that is
reached from below has one. The last name stands first in the list. -/
structure Encloses (outer inner : Absolute) : Prop where
  names : outer.names <:+ inner.names
  twoSlashes : outer.twoSlashes =
    (inner.twoSlashes && (!outer.names.isEmpty || inner.names.isEmpty))

theorem Encloses.of_names (h : outer.Encloses inner) (hn : outer.names = inner.names) :
    outer.SamePlace inner := by
  refine ⟨?_, hn⟩
  simpa [hn] using h.twoSlashes

theorem SamePlace.encloses (h : path.SamePlace other) : path.Encloses other :=
  ⟨h.names ▸ List.suffix_refl _, by simp [h.names, h.twoSlashes]⟩

theorem Encloses.refl (path : Absolute) : path.Encloses path := SamePlace.encloses ⟨rfl, rfl⟩

theorem Encloses.trans (ho : outer.Encloses middle) (hi : middle.Encloses inner) :
    outer.Encloses inner := by
  refine ⟨ho.names.trans hi.names, ?_⟩
  rw [ho.twoSlashes, hi.twoSlashes]
  -- Where the inner names are none, the middle ones are none, and so are the outer ones.
  have hmiddle : inner.names = [] → middle.names = [] := fun h => List.suffix_nil.mp (h ▸ hi.names)
  have houter : middle.names = [] → outer.names = [] := fun h => List.suffix_nil.mp (h ▸ ho.names)
  grind

theorem Encloses.antisymm (h : outer.Encloses inner) (hi : inner.Encloses outer) :
    outer.SamePlace inner :=
  h.of_names (h.names.eq_of_length (Nat.le_antisymm h.names.length_le hi.names.length_le))

theorem Encloses.named (h : outer.Encloses inner) (hn : inner.Named) : outer.Named :=
  fun name hm => hn name (h.names.mem hm)

theorem parent?_eq_none_iff : path.parent? = none ↔ path.names = [] := by
  unfold parent?
  cases path.names <;> simp

theorem parent?_eq_some_iff :
    path.parent? = some outer ↔
      ∃ name above, path.names = name :: above ∧ outer = path.upTo above := by
  unfold parent?
  cases path.names <;> simp [eq_comm]

theorem encloses_of_parent? (h : inner.parent? = some outer) : outer.Encloses inner := by
  obtain ⟨name, above, hn, rfl⟩ := parent?_eq_some_iff.mp h
  exact ⟨hn ▸ List.suffix_cons name above, by simp [upTo, hn]⟩

/-- Between a path and the one above it there is none. -/
theorem Encloses.of_parent? (hp : inner.parent? = some middle) (h : outer.Encloses inner) :
    outer.SamePlace inner ∨ outer.Encloses middle := by
  obtain ⟨name, above, hn, rfl⟩ := parent?_eq_some_iff.mp hp
  have hs := h.names
  rw [hn, List.suffix_cons_iff] at hs
  obtain hs | hs := hs
  · exact .inl (h.of_names (hs.trans hn.symm))
  · refine .inr ⟨hs, ?_⟩
    have habove : above = [] → outer.names = [] := fun h => List.suffix_nil.mp (h ▸ hs)
    rw [h.twoSlashes, hn, upTo]
    grind

theorem Encloses.of_root (hp : inner.parent? = none) (h : outer.Encloses inner) :
    outer.SamePlace inner := by
  have hn := parent?_eq_none_iff.mp hp
  have hs := h.names
  rw [hn, List.suffix_nil] at hs
  exact h.of_names (hs.trans hn.symm)

theorem lineage_of_parent?_none (h : path.parent? = none) : path.lineage = [path] := by
  rw [lineage, parent?_eq_none_iff.mp h]

theorem lineage_of_parent? (h : path.parent? = some outer) :
    path.lineage = path :: outer.lineage := by
  obtain ⟨name, above, hn, rfl⟩ := parent?_eq_some_iff.mp h
  rw [lineage, hn]
  cases above <;> simp [lineage, remainders, upTo]

-- ---------------------------------------------------------------------------
-- The loop
-- ---------------------------------------------------------------------------

variable {p : Absolute → Bool} {result : Option Absolute} {best : Absolute}

inductive Climbs (p : Absolute → Bool) : Absolute → Option Absolute → Prop
  | found {path : Absolute} (h : p path = true) : Climbs p path (some path)
  | up {path above : Absolute} {result : Option Absolute} (h : p path = false)
    (hp : path.parent? = some above) (hc : Climbs p above result) : Climbs p path result
  | root {path : Absolute} (h : p path = false) (hp : path.parent? = none) : Climbs p path none

/-- The loop ends, since above a path there is one with a name less. -/
theorem climbs_nearest? (p : Absolute → Bool) (path : Absolute) :
    Climbs p path (path.nearest? p) := by
  rw [nearest?_eq_find?]
  induction hl : path.names.length generalizing path with
  | zero =>
    have hp : path.parent? = none := parent?_eq_none_iff.mpr (List.length_eq_zero_iff.mp hl)
    rw [lineage_of_parent?_none hp, List.find?_singleton]
    cases h : p path with
    | false => exact .root h hp
    | true => exact .found h
  | succ n ih =>
    obtain ⟨name, above, hn⟩ := List.exists_cons_of_length_eq_add_one hl
    have hp : path.parent? = some (path.upTo above) :=
      parent?_eq_some_iff.mpr ⟨name, above, hn, rfl⟩
    rw [lineage_of_parent? hp, List.find?_cons]
    cases h : p path with
    | false => exact .up h hp (ih _ (by simpa [hn] using hl))
    | true => exact .found h

theorem Climbs.unique {other : Option Absolute} (h : Climbs p path result)
    (ho : Climbs p path other) : result = other := by
  induction h with
  | found h =>
    cases ho with
    | found => rfl
    | up hn => simp [h] at hn
    | root hn => simp [h] at hn
  | up h hp _ ih =>
    cases ho with
    | found hn => simp [h] at hn
    | up _ hother hc =>
      obtain rfl := Option.some.inj (hp.symm.trans hother)
      exact ih hc
    | root _ hother => simp [hp] at hother
  | root h hp =>
    cases ho with
    | found hn => simp [h] at hn
    | up _ hother => simp [hp] at hother
    | root => rfl

theorem climbs_iff : Climbs p path result ↔ path.nearest? p = result :=
  ⟨(climbs_nearest? p path).unique, fun h => h ▸ climbs_nearest? p path⟩

-- ---------------------------------------------------------------------------
-- What is found
-- ---------------------------------------------------------------------------

/-- The longest of the paths that enclose another one and for which a condition holds. -/
structure Nearest (p : Absolute → Bool) (inner best : Absolute) : Prop where
  encloses : best.Encloses inner
  holds : p best = true
  longest : ∀ other : Absolute, other.Encloses inner → p other = true → other.Encloses best

def Steady (p : Absolute → Bool) (inner : Absolute) : Prop :=
  ∀ path other : Absolute, path.Encloses inner → path.SamePlace other → p path = p other

theorem Steady.of_encloses (hs : Steady p inner) (h : outer.Encloses inner) : Steady p outer :=
  fun path other he => hs path other (he.trans h)

theorem Climbs.nearest (h : Climbs p inner (some best)) (hs : Steady p inner) :
    Nearest p inner best := by
  generalize hr : some best = result at h
  induction h with
  | found h =>
    obtain rfl := Option.some.inj hr
    exact ⟨.refl _, h, fun other ho _ => ho⟩
  | @up inner above _ hn hp _ ih =>
    have habove := encloses_of_parent? hp
    obtain ⟨he, hh, hl⟩ := ih (hs.of_encloses habove) hr
    refine ⟨he.trans habove, hh, fun other ho hholds => ?_⟩
    obtain hsame | ho' := ho.of_parent? hp
    · rw [hs other inner ho hsame, hn] at hholds
      cases hholds
    · exact hl other ho' hholds
  | root => cases hr

theorem Climbs.none_holds (h : Climbs p inner none) (hs : Steady p inner)
    (ho : outer.Encloses inner) : p outer = false := by
  generalize hr : none = result at h
  induction h with
  | found => cases hr
  | @up inner above _ hn hp _ ih =>
    obtain hsame | ho' := ho.of_parent? hp
    · rw [hs outer inner ho hsame, hn]
    · exact ih (hs.of_encloses (encloses_of_parent? hp)) ho' hr
  | @root inner hn hp => rw [hs outer inner ho (ho.of_root hp), hn]

theorem Nearest.between (h : Nearest p inner best) (ho : best.Encloses middle)
    (hi : middle.Encloses inner) (hs : Steady p inner) :
    ∃ same, middle.nearest? p = some same ∧ same.SamePlace best := by
  have hc := climbs_nearest? p middle
  have hsm := hs.of_encloses hi
  cases hr : middle.nearest? p with
  | none =>
    rw [hr] at hc
    have hnone := hc.none_holds hsm ho
    rw [h.holds] at hnone
    cases hnone
  | some same =>
    rw [hr] at hc
    have hnear := hc.nearest hsm
    have hsame : same.Encloses best := h.longest same (hnear.encloses.trans hi) hnear.holds
    exact ⟨same, rfl, hsame.antisymm (hnear.longest best ho h.holds)⟩

end Path.Absolute

namespace Locator

open Xref.Path (Absolute absolute?)

def holds (locator : Locator) (w : World) (path : Absolute) : Bool := locator.present w path.text

theorem steady_holds (locator : Locator) (w : World) {inner : Absolute} (hn : inner.Named) :
    Absolute.Steady (locator.holds w) inner := by
  intro path other he hsame
  rw [holds, holds, present, present, Locator.path, Locator.path,
    hsame.join_text (he.named hn)]

variable {locator : Locator} {w : World} {start directory : String} {whole best : Absolute}

theorem locate?_of_absolute? (h : absolute? w.workingPath.toOption start = some whole) :
    locator.locate? w start = (whole.nearest? (locator.holds w)).map Absolute.text := by
  have hp : locator.presentIn w = locator.holds w := funext (locator.presentIn_eq w)
  rw [locate?, hp, h, Option.bind_some]

theorem locate?_eq_some (h : locator.locate? w start = some directory) :
    ∃ whole best, absolute? w.workingPath.toOption start = some whole ∧ directory = best.text ∧
      Absolute.Nearest (locator.holds w) whole best := by
  cases ha : absolute? w.workingPath.toOption start with
  | none => simp [locate?, ha] at h
  | some whole =>
    rw [locate?_of_absolute? ha] at h
    obtain ⟨best, hb, rfl⟩ := Option.map_eq_some_iff.mp h
    have hsteady := locator.steady_holds w (Absolute.named_of_absolute? ha)
    exact ⟨whole, best, rfl, rfl, (Absolute.climbs_iff.mpr hb).nearest hsteady⟩

theorem locate?_eq_none_iff :
    locator.locate? w start = none ↔
      ∀ whole, absolute? w.workingPath.toOption start = some whole →
        ∀ outer : Absolute, outer.Encloses whole → locator.holds w outer = false := by
  constructor
  · intro h whole ha outer ho
    rw [locate?_of_absolute? ha, Option.map_eq_none_iff, ← Absolute.climbs_iff] at h
    exact h.none_holds (locator.steady_holds w (Absolute.named_of_absolute? ha)) ho
  · intro h
    refine Option.eq_none_iff_forall_ne_some.mpr fun directory hd => ?_
    obtain ⟨whole, best, ha, -, hnear⟩ := locate?_eq_some hd
    have hbest := h whole ha best hnear.encloses
    rw [hnear.holds] at hbest
    cases hbest

theorem locate?_text (hn : best.Named) (h : locator.holds w best = true) :
    locator.locate? w best.text = some best.text := by
  obtain ⟨same, ha, -, ht⟩ := Absolute.absolute?_text hn w.workingPath.toOption
  have hsame : locator.holds w same = true := by rwa [holds, ht]
  rw [locate?_of_absolute? ha, Absolute.climbs_iff.mp (.found hsame), Option.map_some, ht]

/-- The start and the directories around it are probed one by one, from the inside, and this ends.
What is found is the longest path that encloses the start and holds the database. Nothing is found
just if the start cannot be made absolute or no such path holds it. From what was found, and from
all between, the same is found again. -/
theorem locate?_nearest (locator : Locator) (w : World) (start : String) :
    (∀ whole, absolute? w.workingPath.toOption start = some whole →
      ∃ result, Absolute.Climbs (locator.holds w) whole result ∧
        locator.locate? w start = result.map Absolute.text) ∧
    (locator.locate? w start = none ↔
      ∀ whole, absolute? w.workingPath.toOption start = some whole →
        ∀ outer : Absolute, outer.Encloses whole → locator.holds w outer = false) ∧
    ∀ directory, locator.locate? w start = some directory →
      ∃ whole best, absolute? w.workingPath.toOption start = some whole ∧
        directory = best.text ∧ Absolute.Nearest (locator.holds w) whole best ∧
        locator.locate? w directory = some directory ∧
        ∀ between middle, absolute? w.workingPath.toOption between = some middle →
          best.Encloses middle → middle.Encloses whole →
          ∃ same : Absolute, locator.locate? w between = some same.text ∧ same.SamePlace best := by
  refine ⟨?_, locate?_eq_none_iff, ?_⟩
  · intro whole h
    exact ⟨_, Absolute.climbs_nearest? _ whole, locate?_of_absolute? h⟩
  · intro directory h
    obtain ⟨whole, best, ha, rfl, hnear⟩ := locate?_eq_some h
    have hnamed := Absolute.named_of_absolute? ha
    refine ⟨whole, best, ha, rfl, hnear, ?_, ?_⟩
    · exact locate?_text (hnear.encloses.named hnamed) hnear.holds
    · intro between middle hm ho hi
      obtain ⟨same, hs, hplace⟩ := hnear.between ho hi (locator.steady_holds w hnamed)
      exact ⟨same, by rw [locate?_of_absolute? hm, hs, Option.map_some], hplace⟩

end Locator

def Sample.nested : World :=
  { world with files := world.files.put ["d", "p"] (some .directory) }

namespace Locator

theorem locate?_nearest_from_below :
    locate? {} Sample.nested "d//" = some "/p" ∧ locate? {} Sample.nested "/p" = some "/p" := by
  have h : locate? {} Sample.nested "d//" = some "/p" := by decide +kernel
  obtain ⟨-, -, hfound⟩ := locate?_nearest {} Sample.nested "d//"
  obtain ⟨whole, best, -, -, -, hagain, -⟩ := hfound "/p" h
  exact ⟨h, hagain⟩

end Locator
end Xref
