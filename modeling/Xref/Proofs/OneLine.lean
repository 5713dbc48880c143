import Xref.Navigator
import Xref.Proofs.Rows
import Xref.Proofs.Validation

/-!
# Messages on one line

A message is put together from fixed words, numbers and texts that it quotes. Words and numbers
have no newline, so that only a quoted text can make a message span lines. What is quoted of an
error of a query is told by `quoted`; all else that a message names is a path.
-/

namespace Xref

def OneLine (text : String) : Prop := '\n' ∉ text.toList

instance (text : String) : Decidable (OneLine text) := inferInstanceAs (Decidable (_ ∉ _))

@[simp] theorem oneLine_append {first second : String} :
    OneLine (first ++ second) ↔ OneLine first ∧ OneLine second := by
  simp [OneLine]

namespace OneLine

theorem append {first second : String} (hf : OneLine first) (hs : OneLine second) :
    OneLine (first ++ second) :=
  oneLine_append.mpr ⟨hf, hs⟩

theorem append_iff {first second : String} (h : OneLine first) :
    OneLine (first ++ second) ↔ OneLine second := by
  simp [h]

/-- The words of a message are taken as the list of their characters. -/
theorem fixed {cs : List Char} (h : '\n' ∉ cs) : OneLine (String.ofList cs) := by
  simpa [OneLine] using h

theorem nat (n : Nat) : OneLine (toString n) := Text.not_mem_toString rfl n

theorem of_subset {text part : String} (h : OneLine text) (hs : part.toList ⊆ text.toList) :
    OneLine part :=
  fun hm => h (hs hm)

theorem trim {text : String} (h : OneLine text) : OneLine (Text.trim text) := by
  refine h.of_subset ?_
  intro c hc
  rw [Text.trim, String.toList_ofList, Text.trimChars, List.mem_reverse] at hc
  have hc := List.mem_reverse.mp ((List.dropWhile_sublist _).mem hc)
  exact (List.dropWhile_sublist _).mem hc

end OneLine

-- ---------------------------------------------------------------------------
-- Errors
-- ---------------------------------------------------------------------------

def SystemError.quoted : SystemError → String
  | .code _ => ""
  | .other text => text

theorem SystemError.oneLine_describe (number : Nat) : OneLine (describe number) := by
  have htexts : ∀ entry ∈ texts, OneLine entry.2 := by
    unfold texts
    repeat' first
      | exact List.forall_mem_nil _
      | refine List.forall_mem_cons.mpr ⟨.fixed (by decide), ?_⟩
  unfold describe
  cases h : texts.lookup number with
  | none => exact .append (.fixed (by decide)) (.nat number)
  | some text =>
    obtain ⟨before, after, hs, -⟩ := List.lookup_eq_some_iff.mp h
    exact htexts (number, text) (by simp [hs])

theorem SystemError.oneLine_message_iff (e : SystemError) :
    OneLine e.message ↔ OneLine e.quoted := by
  cases e with
  | other text => rfl
  | code number =>
    refine iff_of_true ?_ (.fixed (by decide))
    exact .append (.append (.append (oneLine_describe number) (.fixed (by decide))) (.nat number))
      (.fixed (by decide))

theorem HistoryError.oneLine_message (e : HistoryError) : OneLine e.message := by
  cases e with
  | full capacity =>
    exact .append (.append (.fixed (by decide)) (.nat capacity)) (.fixed (by decide))
  | empty => exact .fixed (by decide)

namespace Query

theorem Kind.oneLine_description (kind : Kind) : OneLine kind.description := by
  cases kind <;> exact .fixed (by decide)

theorem ExitStatus.oneLine_signalName {number : Nat} {name : String}
    (h : signalName? number = some name) : OneLine name := by
  unfold signalName? at h
  split at h
  all_goals first
    | obtain rfl := Option.some.inj h
      exact .fixed (by decide)
    | cases h

theorem ExitStatus.oneLine_describe (status : ExitStatus) : OneLine status.describe := by
  cases status with
  | exited code => exact .append (.fixed (by decide)) (.nat _)
  | signaled number coreDumped =>
    unfold describe
    refine .append (.append (.append (.fixed (by decide)) (.nat number)) ?_) ?_
    · split
      · next name h =>
        exact .append (.append (.fixed (by decide)) (oneLine_signalName h)) (.fixed (by decide))
      · exact .fixed (by decide)
    · split <;> exact .fixed (by decide)

def Error.program? : Error → Option String
  | .spawnFailed program _ | .failed program _ _ => some program
  | .readFailed _ | .noOutput => none

/-- The text from outside that an error brings with it. -/
def Error.quoted : Error → String
  | .spawnFailed _ cause | .readFailed cause => cause.quoted
  | .failed _ _ diagnostics => diagnostics
  | .noOutput => ""

theorem Error.oneLine_message_iff {e : Error}
    (h : ∀ program, e.program? = some program → OneLine program) :
    OneLine e.message ↔ OneLine e.quoted := by
  cases e with
  | spawnFailed program cause =>
    have hbefore : OneLine ("failed to start '" ++ program ++ "': ") :=
      .append (.append (.fixed (by decide)) (h program rfl)) (.fixed (by decide))
    exact hbefore.append_iff.trans cause.oneLine_message_iff
  | readFailed cause =>
    have hbefore : OneLine "failed to read query output: " := .fixed (by decide)
    exact hbefore.append_iff.trans cause.oneLine_message_iff
  | failed program status diagnostics =>
    have hbefore : OneLine ("'" ++ program ++ "' exited with " ++ status.describe ++ ": ") :=
      .append (.append (.append (.append (.fixed (by decide)) (h program rfl))
        (.fixed (by decide))) status.oneLine_describe) (.fixed (by decide))
    exact hbefore.append_iff
  | noOutput =>
    have hwords : OneLine "query produced no output" := .fixed (by decide)
    exact iff_of_true hwords (.fixed (by decide))

end Query

-- ---------------------------------------------------------------------------
-- Paths
-- ---------------------------------------------------------------------------

theorem FileSystem.advance_error {fs : FileSystem} {purpose : Purpose} {names : List String}
    {p : Place} {e : SystemError} (h : fs.advance purpose p names = .error e) :
    ∃ number, e = .code number := by
  induction names generalizing p with
  | nil => cases h
  | cons name rest ih =>
    unfold advance at h
    repeat' split at h
    all_goals first
      | exact ih h
      | cases h
        exact ⟨_, rfl⟩
      | cases h

theorem FileSystem.walk_error {fs : FileSystem} {purpose : Purpose} {links : Nat} {p : Place}
    {names : List String} {e : SystemError} (h : fs.walk purpose links p names = .error e) :
    ∃ number, e = .code number := by
  induction links generalizing p names with
  | zero =>
    unfold walk at h
    split at h
    · next ha =>
      cases h
      exact advance_error ha
    · cases h
    · cases h
      exact ⟨_, rfl⟩
  | succ links ih =>
    unfold walk at h
    split at h
    · next ha =>
      cases h
      exact advance_error ha
    · cases h
    · exact ih h

theorem FileSystem.oneLine_of_resolve {fs : FileSystem} {purpose : Purpose} {base : Place}
    {path : String} {e : SystemError} (h : fs.resolve purpose base path = .error e) :
    OneLine e.quoted := by
  have hcode : (∃ number, e = .code number) → OneLine e.quoted := by
    rintro ⟨number, rfl⟩
    exact .fixed (by decide)
  unfold resolve at h
  split at h
  · cases h
    exact .fixed (by decide)
  split at h
  · cases h
    exact hcode ⟨_, rfl⟩
  split at h
  · cases h
    exact hcode ⟨_, rfl⟩
  · exact hcode (walk_error h)

theorem World.oneLine_of_stat {w : World} {path : String} {e : SystemError}
    (h : w.stat path = .error e) : OneLine e.message := by
  rw [e.oneLine_message_iff]
  have hlookup : w.lookup path = .error e := by
    unfold stat at h
    split at h <;> cases h
    assumption
  unfold lookup at hlookup
  split at hlookup
  · next hr =>
    cases hlookup
    exact FileSystem.oneLine_of_resolve hr
  · cases hlookup
    exact .fixed (by decide)
  · split at hlookup <;> cases hlookup
    exact .fixed (by decide)

namespace Path

theorem subset_of_mem_splitChars {cs piece : List Char} (h : piece ∈ splitChars cs) :
    piece ⊆ cs := by
  rw [splitChars_eq] at h
  obtain ⟨-, front, back, rfl, -⟩ := exists_of_mem_splitOn h
  exact fun c hc => List.mem_append_left back (List.mem_append_right front hc)

theorem oneLine_of_mem_names {path name : String} (h : OneLine path) (hn : name ∈ names path) :
    OneLine name := by
  obtain ⟨piece, hp, rfl⟩ := List.mem_map.mp (List.mem_filter.mp hn).1
  refine h.of_subset ?_
  rw [String.toList_ofList]
  exact subset_of_mem_splitChars hp

theorem oneLine_join {base path : String} (hb : OneLine base) (hp : OneLine path) :
    OneLine (join base path) := by
  unfold join
  split
  · exact hp
  split
  · exact hb.append hp
  · exact (hb.append (.fixed (by decide))).append hp

theorem oneLine_intercalate {names : List String} (h : ∀ name ∈ names, OneLine name) :
    OneLine ("/".intercalate names) := by
  induction names with
  | nil => exact .fixed (by decide)
  | cons name rest ih =>
    obtain ⟨hname, hrest⟩ := List.forall_mem_cons.mp h
    cases rest with
    | nil => simpa using hname
    | cons next rest =>
      rw [String.intercalate_cons_cons]
      exact (hname.append (.fixed (by decide))).append (ih hrest)

namespace Absolute

theorem oneLine_text {path : Absolute} (h : ∀ name ∈ path.names, OneLine name) :
    OneLine path.text := by
  have hnames : OneLine ("/".intercalate path.names.reverse) :=
    oneLine_intercalate fun name hn => h name (List.mem_reverse.mp hn)
  refine (OneLine.append ?_ hnames).append ?_
  · split <;> exact .fixed (by decide)
  · split <;> exact .fixed (by decide)

theorem subset_of_mem_remainders {names above : List String} (h : above ∈ remainders names) :
    above ⊆ names := by
  induction names with
  | nil =>
    obtain rfl := List.mem_singleton.mp h
    exact List.Subset.refl _
  | cons name rest ih =>
    obtain rfl | h := List.mem_cons.mp h
    · exact List.Subset.refl _
    · exact List.Subset.trans (ih h) (List.subset_cons_self name rest)

theorem names_subset_of_mem_lineage {path other : Absolute} (h : other ∈ path.lineage) :
    other.names ⊆ path.names := by
  unfold lineage at h
  split at h
  · next hn =>
    obtain rfl := List.mem_singleton.mp h
    exact List.Subset.refl _
  · next last above hn =>
    obtain rfl | h := List.mem_cons.mp h
    · exact List.Subset.refl _
    · obtain ⟨names, hm, rfl⟩ := List.mem_map.mp h
      rw [hn]
      exact List.Subset.trans (subset_of_mem_remainders hm) (List.subset_cons_self last above)

end Absolute

theorem oneLine_of_absolute? {base : Option String} {path : String} {whole : Absolute}
    (hb : ∀ text, base = some text → OneLine text) (hp : OneLine path)
    (h : absolute? base path = some whole) : ∀ name ∈ whole.names, OneLine name := by
  simp only [absolute?] at h
  intro name hn
  split at h
  · cases h
  split at h
  · cases h
    exact oneLine_of_mem_names hp (List.mem_reverse.mp hn)
  · obtain ⟨text, ht, rfl⟩ := Option.map_eq_some_iff.mp h
    obtain hn | hn := List.mem_append.mp (List.mem_reverse.mp hn)
    · exact oneLine_of_mem_names (hb text ht) hn
    · exact oneLine_of_mem_names hp hn

end Path

theorem Locator.oneLine_of_locate? {locator : Locator} {w : World} {start directory : String}
    (hw : ∀ text, w.workingPath.toOption = some text → OneLine text) (hs : OneLine start)
    (h : locator.locate? w start = some directory) : OneLine directory := by
  rw [locate?_eq] at h
  obtain ⟨path, hp, hf⟩ := Option.bind_eq_some_iff.mp h
  obtain ⟨found, hm, rfl⟩ := List.mem_map.mp (List.mem_of_find?_eq_some hf)
  exact Path.Absolute.oneLine_text fun name hn =>
    Path.oneLine_of_absolute? hw hs hp name
      (Path.Absolute.names_subset_of_mem_lineage hm hn)

namespace Navigator

theorem oneLine_expandHome {home path : String} (hh : OneLine home) (hp : OneLine path) :
    OneLine (expandHome home path) := by
  unfold expandHome
  split
  · exact hh
  · next rest hs =>
    refine hh.append (hp.of_subset ?_)
    rw [hs, String.toList_ofList]
    exact List.subset_cons_self _ _
  · next rest hs =>
    refine (hh.append (.fixed (by decide))).append (hp.of_subset ?_)
    rw [hs, String.toList_ofList]
    exact List.subset_cons_self _ _
  · exact hp

theorem oneLine_of_checkDirectory {locator : Locator} {w : World} {text : String}
    (hh : OneLine w.home) (ht : OneLine text) :
    (∀ e, checkDirectory locator w text = .error e → OneLine e.message) ∧
      ∀ directory, checkDirectory locator w text = .ok directory → OneLine directory := by
  have hpath : OneLine (expandHome w.home (Text.trim text)) := oneLine_expandHome hh ht.trim
  have hverdict := verdict_checkDirectory locator w text
  generalize expandHome w.home (Text.trim text) = path at hpath hverdict
  generalize checkDirectory locator w text = verdict at hverdict ⊢
  cases hverdict with
  | notAbsolute =>
    refine ⟨fun e h => ?_, fun directory h => (nomatch h)⟩
    cases h
    exact .fixed (by decide)
  | doesNotExist | notADirectory =>
    refine ⟨fun e h => ?_, fun directory h => (nomatch h)⟩
    cases h
    exact .append (.fixed (by decide)) hpath
  | unreadable _ hl =>
    refine ⟨fun e h => ?_, fun directory h => (nomatch h)⟩
    cases h
    exact .append (.append (.append (.fixed (by decide)) hpath) (.fixed (by decide)))
      (World.oneLine_of_stat (World.stat_eq_error_iff.mpr hl))
  | noDatabase =>
    refine ⟨fun e h => ?_, fun directory h => (nomatch h)⟩
    cases h
    exact .append (.append (.fixed (by decide)) hpath) (.fixed (by decide))
  | accepted =>
    refine ⟨fun e h => (nomatch h), fun directory h => ?_⟩
    cases h
    exact hpath

end Navigator
end Xref
