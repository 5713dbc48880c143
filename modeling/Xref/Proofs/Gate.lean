import Xref.CommandLine
import Xref.Proofs.Pieces
import Xref.Proofs.Run
import Xref.Proofs.Validation

/-!
# What reaches the query program

A directory is remembered only after it was checked, whether it came with the configuration, with
a command or from the upward search. A request therefore names an absolute directory that held the
database when it was remembered, a kind that is supported and a symbol that is not blank.
-/

namespace Xref

def Inked (text : String) : Prop := ∃ c ∈ text.toList, Text.isBlank c = false

theorem inked_iff {text : String} : Inked text ↔ Text.allBlank text = false := by
  simp [Inked, Text.allBlank]

-- ---------------------------------------------------------------------------
-- Directories
-- ---------------------------------------------------------------------------

/-- The directory may be remembered: it is absolute and holds the database. -/
def Locator.Admits (locator : Locator) (w : World) (directory : String) : Prop :=
  Path.isAbsolute directory = true ∧ locator.present w directory = true

theorem Locator.admits_of_locate? {locator : Locator} {w : World} {start directory : String}
    (h : locator.locate? w start = some directory) : locator.Admits w directory := by
  rw [locate?_eq] at h
  obtain ⟨path, -, hf⟩ := Option.bind_eq_some_iff.mp h
  obtain ⟨found, -, rfl⟩ := List.mem_map.mp (List.mem_of_find?_eq_some hf)
  exact ⟨found.isAbsolute_text, List.find?_some hf⟩

namespace Navigator

theorem admits_of_checkDirectory {locator : Locator} {w : World} {text directory : String}
    (h : checkDirectory locator w text = .ok directory) : locator.Admits w directory := by
  obtain ⟨hpath, ha, -, hf⟩ := verdict_ok_iff.mp (verdict_iff.mpr h.symm)
  rw [hpath]
  exact ⟨ha, World.isFile_iff.mpr hf⟩

theorem react_directory {nav : Navigator} {step : Step} {directory : String}
    (h : (nav.react step).navigator.directory = some directory) :
    nav.directory = some directory ∨ nav.locator.Admits step.world directory := by
  have hresolve {found : String} {notices : List Event}
      (hr : nav.resolve step.world = some (found, notices)) (hf : found = directory) :
      nav.directory = some directory ∨ nav.locator.Admits step.world directory := by
    subst hf
    rcases resolve_eq_some.mp hr with ⟨hd, -⟩ | ⟨-, -, start, -, hl⟩
    · exact .inl hd
    · exact .inr (Locator.admits_of_locate? hl)
  obtain ⟨r, hx, hreact⟩ := nav.react_exit step
  rw [hreact] at h
  cases hx with
  | unsupported | unlocated | outOfRange | noMark | popped | refused => exact .inl h
  | blank hc hk hr hs => exact hresolve hr (Option.some.inj h)
  | unanswered ha | unmatched ha | listed ha => exact hresolve ha.resolved (Option.some.inj h)
  | jumped ha => exact hresolve ha.resolved (Option.some.inj (by simpa [asking] using h))
  | selected => exact .inl (by simpa using h)
  | accepted hc hd =>
    obtain rfl := Option.some.inj h
    exact .inr (admits_of_checkDirectory hd)

theorem seed_eq_ok {nav seeded : Navigator} {w : World} {text : String}
    (h : nav.seed w text = .ok seeded) :
    ∃ directory, nav.locator.Admits w directory ∧
      seeded = { nav with directory := some directory } := by
  unfold seed at h
  split at h
  · next directory hd =>
    cases h
    exact ⟨directory, admits_of_checkDirectory hd, rfl⟩
  · cases h

-- ---------------------------------------------------------------------------
-- The moment of entry
-- ---------------------------------------------------------------------------

/-- The directory was first remembered in this world, by the first navigator or by a step that did
not find it remembered, and has been ever since. -/
def Entered (start : Navigator) (built : World) (run : List Step) (directory : String)
    (w : World) : Prop :=
  (w = built ∧ ∀ pre, pre <+: run → (start.after pre).directory = some directory) ∨
    ∃ pre step post, run = pre ++ step :: post ∧ w = step.world ∧
      (start.after pre).directory ≠ some directory ∧
      ∀ mid, mid <+: post → (start.after (pre ++ step :: mid)).directory = some directory

theorem Entered.concat {start : Navigator} {built : World} {run : List Step} {step : Step}
    {directory : String} {w : World} (h : Entered start built run directory w)
    (hd : (start.after (run ++ [step])).directory = some directory) :
    Entered start built (run ++ [step]) directory w := by
  rcases h with ⟨hw, hall⟩ | ⟨pre, entry, post, rfl, hw, hn, hall⟩
  · refine .inl ⟨hw, fun pre hp => ?_⟩
    rcases List.prefix_concat_iff.mp hp with rfl | hp
    · exact hd
    · exact hall pre hp
  · refine .inr ⟨pre, entry, post ++ [step], by simp, hw, hn, fun mid hm => ?_⟩
    rcases List.prefix_concat_iff.mp hm with rfl | hm
    · simpa using hd
    · exact hall mid hm

theorem exists_entered (start : Navigator) (built : World) {run : List Step} {directory : String}
    (h : (start.after run).directory = some directory) :
    ∃ w, Entered start built run directory w := by
  induction run using List.reverseRecOn with
  | nil =>
    refine ⟨built, .inl ⟨rfl, fun pre hp => ?_⟩⟩
    rw [List.prefix_nil.mp hp]
    exact h
  | append_singleton run step ih =>
    by_cases hd : (start.after run).directory = some directory
    · obtain ⟨w, hw⟩ := ih hd
      exact ⟨w, hw.concat h⟩
    · refine ⟨step.world, .inr ⟨run, step, [], rfl, rfl, hd, fun mid hm => ?_⟩⟩
      rw [List.prefix_nil.mp hm]
      exact h

/-- At its entry a directory was checked, if it was when the first navigator was built. -/
theorem Entered.admits {start : Navigator} {built w : World} {run : List Step}
    {directory : String} (h : Entered start built run directory w)
    (hb : ∀ directory, start.directory = some directory →
      start.locator.Admits built directory) :
    start.locator.Admits w directory := by
  rcases h with ⟨rfl, hall⟩ | ⟨pre, step, post, -, rfl, hn, hall⟩
  · exact hb directory (hall [] (List.nil_prefix))
  · have hd := hall [] List.nil_prefix
    rw [after_concat] at hd
    have hs := (react_directory hd).resolve_left hn
    rwa [after_locator] at hs

-- ---------------------------------------------------------------------------
-- Symbols
-- ---------------------------------------------------------------------------

theorem filter_inked {text : Option String} {chosen : String} :
    text.filter (!Text.allBlank ·) = some chosen ↔ text = some chosen ∧ Inked chosen := by
  simp [Option.filter_eq_some_iff, inked_iff]

theorem chooseSymbol_eq_some {symbol word : Option String} {chosen : String} :
    chooseSymbol symbol word = some chosen ↔
      (symbol = some chosen ∧ Inked chosen) ∨
        ((¬∃ text, symbol = some text ∧ Inked text) ∧ word = some chosen ∧ Inked chosen) := by
  have hnone : symbol.filter (!Text.allBlank ·) = none ↔
      ¬∃ text, symbol = some text ∧ Inked text := by
    simp only [← filter_inked, Option.eq_none_iff_forall_ne_some, not_exists, ne_eq]
  simp only [chooseSymbol, Option.or_eq_some_iff, filter_inked, hnone]

-- ---------------------------------------------------------------------------
-- Requests
-- ---------------------------------------------------------------------------

theorem navigator_eq_ok {built : World} {config : Config} {start : Navigator}
    (h : CommandLine.navigator built config = .ok start) :
    start.locator = config.locator ∧
      ∀ directory, start.directory = some directory → config.locator.Admits built directory := by
  simp only [CommandLine.navigator] at h
  split at h
  · cases h
    refine ⟨rfl, fun directory hd => ?_⟩
    cases hd
  · split at h
    · next nav hseed =>
      cases h
      obtain ⟨directory, ha, rfl⟩ := seed_eq_ok hseed
      refine ⟨rfl, fun _ hd => ?_⟩
      cases hd
      exact ha
    · cases h

structure Gated (config : Config) (built : World) (start : Navigator) (steps : List Step)
    (step : Step) (request : Query.Request) : Prop where
  /-- The kind is that of the find. So is the symbol, if it has one that is not blank; otherwise
  it is the word at the cursor. -/
  asked : ∃ symbol, step.command = .find request.kind symbol ∧
    (symbol = some request.symbol ∨
      (¬∃ text, symbol = some text ∧ Inked text) ∧ step.host.word = some request.symbol)
  supported : request.kind.supported = true
  inked : Inked request.symbol
  absolute : Path.isAbsolute request.directory = true
  /-- The directory is the one that was remembered, if there was one, and is remembered now. -/
  known : ∀ directory, (start.after steps).directory = some directory →
    request.directory = directory
  remembered :
    ((start.after steps).react step).navigator.directory = some request.directory
  /-- When it was first remembered it held the database. -/
  entered : (∃ w, Entered start built (steps ++ [step]) request.directory w) ∧
    ∀ w, Entered start built (steps ++ [step]) request.directory w →
      config.locator.present w request.directory = true
  /-- The tool is pointed to the very file that the locator looks for. -/
  argument : ((config.tool.arguments request).drop 2).take 2 =
    ["-f", config.locator.path request.directory]

/-- In every run from a configuration only a find makes requests, at most one, and that one has
passed every check. -/
theorem requests_gated {built : World} {config : Config} {start : Navigator}
    (hs : CommandLine.navigator built config = .ok start) (steps : List Step) (step : Step) :
    ((∀ kind symbol, step.command ≠ .find kind symbol) →
      ((start.after steps).react step).requests = []) ∧
    ((start.after steps).react step).requests.length ≤ 1 ∧
    ∀ request ∈ ((start.after steps).react step).requests,
      Gated config built start steps step request := by
  obtain ⟨hlocator, hbuilt⟩ := navigator_eq_ok hs
  refine ⟨react_requests_eq_nil, ?_, fun request hq => ?_⟩
  · match hq : ((start.after steps).react step).requests with
    | [] => exact Nat.zero_le 1
    | request :: rest =>
      have hm : request ∈ ((start.after steps).react step).requests := by
        rw [hq]
        exact List.mem_cons_self
      rw [← hq, (asks_of_mem_requests hm).2.1]
      exact Nat.le_refl 1
  · obtain ⟨⟨notices, ha⟩, -, hdirectory⟩ := asks_of_mem_requests hq
    obtain ⟨symbol, hc, hchosen⟩ := ha.symbol
    have hrun : (start.after (steps ++ [step])).directory = some request.directory := by
      rw [after_concat]
      exact hdirectory
    have hadmits (w : World) (hw : Entered start built (steps ++ [step]) request.directory w) :
        config.locator.Admits w request.directory := by
      rw [← hlocator] at hbuilt ⊢
      exact hw.admits hbuilt
    obtain ⟨entry, hentry⟩ := exists_entered start built hrun
    have hsymbol := chooseSymbol_eq_some.mp hchosen
    exact {
      asked := ⟨symbol, hc, hsymbol.imp And.left fun h => ⟨h.1, h.2.1⟩⟩
      supported := ha.supported
      inked := hsymbol.elim And.right fun h => h.2.2
      absolute := (hadmits entry hentry).1
      known := fun directory hd => by
        rcases resolve_eq_some.mp ha.resolved with ⟨hr, -⟩ | ⟨hr, -⟩
        · exact Option.some.inj (hr.symm.trans hd)
        · exact absurd (hr.symm.trans hd) (by simp)
      remembered := hdirectory
      entered := ⟨⟨entry, hentry⟩, fun w hw => (hadmits w hw).2⟩
      argument := rfl }

theorem requests_gated_after_setDirectory :
    ∃ start, CommandLine.navigator Sample.world { databaseDirectory := some "/p" } = .ok start ∧
      Gated { databaseDirectory := some "/p" } Sample.world start
        [Sample.step [] (.setDirectory "/q")] (Sample.step Sample.oneMatch (.find .callers none))
        ⟨.callers, "run", "/q"⟩ := by
  have hs : CommandLine.navigator Sample.world { databaseDirectory := some "/p" } =
      .ok ⟨{}, some "/p", none, { capacity := 1024 }⟩ := by decide +kernel
  exact ⟨_, hs, (requests_gated hs _ _).2.2 _ (by decide +kernel)⟩

end Navigator
end Xref
