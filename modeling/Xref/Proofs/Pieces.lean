import Xref.Path

/-!
# Pieces between separators

A piece of a list has no separator and stands between two, or at an end. The pieces of a path are
those of its text, so that an absolute path that was taken apart is read off its text again: the
names, the separators in front and the one at the end. Paths that are joined have the pieces of
both, but for an empty one between them.
-/

namespace Xref

theorem exists_of_mem_splitOn {α : Type} [DecidableEq α] {x : α} {xs piece : List α}
    (h : piece ∈ xs.splitOn x) :
    x ∉ piece ∧ ∃ front back, xs = front ++ piece ++ back ∧
      (front = [] ∨ ∃ more, front = more ++ [x]) ∧ (back = [] ∨ ∃ more, back = x :: more) := by
  induction hn : xs.length using Nat.strongRecOn generalizing xs with
  | ind n ih =>
    by_cases hx : x ∈ xs
    · obtain ⟨first, rest, rfl, hfirst⟩ := List.eq_append_cons_of_mem hx
      rw [List.splitOn_append_cons_self_of_not_mem hfirst, List.mem_cons] at h
      obtain rfl | h := h
      · exact ⟨hfirst, [], x :: rest, rfl, .inl rfl, .inr ⟨rest, rfl⟩⟩
      · have hlt : rest.length < n := by
          simp only [List.length_append, List.length_cons] at hn
          omega
        obtain ⟨hp, front, back, rfl, hfront, hback⟩ := ih rest.length hlt h rfl
        refine ⟨hp, first ++ x :: front, back, by simp, .inr ?_, hback⟩
        obtain rfl | ⟨more, rfl⟩ := hfront
        · exact ⟨first, rfl⟩
        · exact ⟨first ++ x :: more, by simp⟩
    · rw [List.splitOn_eq_singleton hx, List.mem_singleton] at h
      subst h
      exact ⟨hx, [], [], by simp, .inl rfl, .inl rfl⟩

namespace Path

theorem splitChars_eq (cs : List Char) : splitChars cs = cs.splitOn separator := by
  induction cs with
  | nil => rfl
  | cons c rest ih =>
    rw [splitChars] at ih ⊢
    rw [List.foldr_cons, ih, List.splitOn_cons_eq_if_modifyHead]
    by_cases h : c = separator
    · simp [h]
    · obtain ⟨piece, more, hs⟩ := List.exists_cons_of_ne_nil (List.splitOn_ne_nil separator rest)
      simp [h, hs]

theorem toList_separator : "/".toList = [separator] := rfl

@[simp] theorem pieces_empty : pieces "" = [""] := rfl

theorem pieces_append (front back : String) :
    pieces (front ++ "/" ++ back) = pieces front ++ pieces back := by
  simp only [pieces, splitChars_eq, String.toList_append, toList_separator, List.append_assoc,
    List.singleton_append, List.splitOn_append_cons_self, List.map_append]

theorem pieces_of_not_mem {name : String} (h : separator ∉ name.toList) : pieces name = [name] := by
  simp [pieces, splitChars_eq, List.splitOn_eq_singleton h]

structure IsName (name : String) : Prop where
  ne_empty : name ≠ ""
  ne_dot : name ≠ "."
  separator_not_mem : separator ∉ name.toList

theorem names_append (front back : String) :
    names (front ++ "/" ++ back) = names front ++ names back := by
  simp only [names, pieces_append, List.filter_append]

@[simp] theorem names_empty : names "" = [] := rfl

theorem IsName.names {name : String} (h : IsName name) : names name = [name] := by
  simp [Path.names, pieces_of_not_mem h.separator_not_mem, h.ne_empty, h.ne_dot]

theorem isName_of_mem_names {path name : String} (h : name ∈ names path) : IsName name := by
  obtain ⟨hp, hk⟩ := List.mem_filter.mp h
  obtain ⟨piece, hm, rfl⟩ := List.mem_map.mp hp
  rw [splitChars_eq] at hm
  simp only [Bool.and_eq_true, Bool.not_eq_true', decide_eq_true_eq] at hk
  refine ⟨fun he => ?_, hk.2, ?_⟩
  · simp [he] at hk
  · rw [String.toList_ofList]
    exact (exists_of_mem_splitOn hm).1

theorem names_intercalate {names : List String} (h : ∀ name ∈ names, IsName name) :
    Path.names ("/".intercalate names) = names := by
  induction names with
  | nil => rfl
  | cons name rest ih =>
    obtain ⟨hname, hrest⟩ := List.forall_mem_cons.mp h
    cases rest with
    | nil => simpa using hname.names
    | cons next rest =>
      rw [String.intercalate_cons_cons, names_append, hname.names, ih hrest]
      rfl

-- ---------------------------------------------------------------------------
-- Joined paths
-- ---------------------------------------------------------------------------

theorem pieces_append_separator (front : String) :
    pieces (front ++ "/") = pieces front ++ [""] := by
  simpa using pieces_append front ""

def stem (base : String) : String :=
  if base.isEmpty || base.toList.getLast? = some separator then base else base ++ "/"

def leading (base : String) : List String :=
  if base.isEmpty || base.toList.getLast? = some separator then (pieces base).dropLast
  else pieces base

theorem exists_stem (base : String) : ∃ between, stem base = base ++ between := by
  unfold stem
  split
  · exact ⟨"", String.append_empty.symm⟩
  · exact ⟨"/", rfl⟩

theorem exists_of_no_separator {base : String}
    (h : (base.isEmpty || base.toList.getLast? = some separator) = true) :
    base = "" ∨ ∃ front, base = front ++ "/" := by
  rw [Bool.or_eq_true, String.isEmpty_iff, decide_eq_true_eq] at h
  refine h.imp_right fun hs => ?_
  obtain ⟨cs, hcs⟩ := List.getLast?_eq_some_iff.mp hs
  refine ⟨String.ofList cs, ?_⟩
  rw [← String.toList_inj]
  simp [hcs, separator]

/-- An empty piece at the end of a path gets lost in front of another. -/
theorem pieces_eq_leading (base : String) :
    pieces base = leading base ∨ pieces base = leading base ++ [""] := by
  unfold leading
  split
  · next h =>
    obtain rfl | ⟨front, rfl⟩ := exists_of_no_separator h
    · exact .inr rfl
    · rw [pieces_append_separator, List.dropLast_concat]
      exact .inr rfl
  · exact .inl rfl

section Join

variable {file : String} (h : isAbsolute file = false) (base : String)
include h

theorem join_eq_stem_append : join base file = stem base ++ file := by
  unfold join stem
  rw [h, if_neg Bool.false_ne_true]
  split
  · rfl
  · rfl

theorem pieces_join : pieces (join base file) = leading base ++ pieces file := by
  rw [join_eq_stem_append h, stem, leading]
  split
  · next hb =>
    obtain rfl | ⟨front, rfl⟩ := exists_of_no_separator hb
    · rw [String.empty_append]
      rfl
    · rw [pieces_append_separator, List.dropLast_concat, pieces_append]
  · rw [pieces_append]

theorem isAbsolute_join : isAbsolute (join base file) = isAbsolute base := by
  by_cases hb : base = ""
  · subst hb
    rw [join_eq_stem_append h]
    exact h
  · obtain ⟨c, cs, hc⟩ := List.exists_cons_of_ne_nil (mt String.toList_eq_nil_iff.mp hb)
    obtain ⟨between, hs⟩ := exists_stem base
    simp [join_eq_stem_append h, hs, isAbsolute, hc]

end Join

-- ---------------------------------------------------------------------------
-- Absolute paths
-- ---------------------------------------------------------------------------

/-- Neither starts nor ends with a separator, and is not empty. -/
structure Bare (text : String) : Prop where
  first : ∃ c, text.toList.head? = some c ∧ c ≠ separator
  last : ∃ c, text.toList.getLast? = some c ∧ c ≠ separator

theorem IsName.bare {name : String} (h : IsName name) : Bare name := by
  have hne : name.toList ≠ [] := by simpa using h.ne_empty
  have hmem {c : Char} (hc : c ∈ name.toList) : c ≠ separator := fun he =>
    h.separator_not_mem (he ▸ hc)
  exact ⟨⟨_, List.head?_eq_some_head hne, hmem (List.head_mem hne)⟩,
    ⟨_, List.getLast?_eq_some_getLast hne, hmem (List.getLast_mem hne)⟩⟩

theorem Bare.append {front back : String} (hf : Bare front) (hb : Bare back) :
    Bare (front ++ "/" ++ back) := by
  obtain ⟨c, hc, hcs⟩ := hf.first
  obtain ⟨d, hd, hds⟩ := hb.last
  refine ⟨⟨c, ?_, hcs⟩, ⟨d, ?_, hds⟩⟩
  · simp [hc]
  · simp [List.getLast?_cons, hd]

theorem bare_intercalate {names : List String} (h : ∀ name ∈ names, IsName name)
    (hne : names ≠ []) : Bare ("/".intercalate names) := by
  induction names with
  | nil => contradiction
  | cons name rest ih =>
    obtain ⟨hname, hrest⟩ := List.forall_mem_cons.mp h
    cases rest with
    | nil => simpa using hname.bare
    | cons next rest =>
      rw [String.intercalate_cons_cons]
      exact hname.bare.append (ih hrest (List.cons_ne_nil _ _))

namespace Absolute

def Named (path : Absolute) : Prop := ∀ name ∈ path.names, IsName name

/-- The same names behind the same separators. A separator at the end has no part in it. -/
structure SamePlace (path other : Absolute) : Prop where
  twoSlashes : path.twoSlashes = other.twoSlashes
  names : path.names = other.names

variable {path other : Absolute}

theorem SamePlace.symm (h : path.SamePlace other) : other.SamePlace path :=
  ⟨h.twoSlashes.symm, h.names.symm⟩

theorem isAbsolute_text (path : Absolute) : Path.isAbsolute path.text = true := by
  cases h : path.twoSlashes <;> simp [isAbsolute, text, h, separator]

theorem text_eq (h : path.names ≠ []) :
    path.text = (if path.twoSlashes then "//" else "/") ++ "/".intercalate path.names.reverse ++
      (if path.trailing then "/" else "") := by
  have he : path.names.isEmpty = false := by simpa using h
  rw [text, he, Bool.not_false, Bool.and_true]

theorem text_root (h : path.names = []) : path.text = if path.twoSlashes then "//" else "/" := by
  cases ht : path.twoSlashes <;> simp [text, h, ht]

theorem named_of_absolute? {base : Option String} {start : String}
    (h : absolute? base start = some path) : path.Named := by
  unfold absolute? at h
  dsimp only at h
  split at h
  · cases h
  split at h
  · obtain rfl := Option.some.inj h
    exact fun name hn => isName_of_mem_names (List.mem_reverse.mp hn)
  · obtain ⟨directory, -, rfl⟩ := Option.map_eq_some_iff.mp h
    intro name hn
    obtain hn | hn := List.mem_append.mp (List.mem_reverse.mp hn)
    · exact isName_of_mem_names hn
    · exact isName_of_mem_names hn

theorem names_text (h : path.Named) : Path.names path.text = path.names.reverse := by
  have hfront (back : String) : Path.names ("/" ++ back) = Path.names back := names_append "" back
  have hback (front : String) : Path.names (front ++ "/") = Path.names front := by
    simpa using names_append front ""
  have hnames : Path.names ("/".intercalate path.names.reverse) = path.names.reverse :=
    names_intercalate fun name hn => h name (List.mem_reverse.mp hn)
  have htwo : "//" = "/" ++ "/" := rfl
  by_cases hr : path.names = []
  · rw [text_root hr, hr]
    split <;> rfl
  · rw [text_eq hr, htwo]
    split <;> split <;> simp only [String.append_assoc, String.append_empty, hfront, hback, hnames]

theorem absolute?_of_bare {stem : String} (h : Bare stem) (base : Option String)
    (two last : Bool) :
    absolute? base ((if two then "//" else "/") ++ stem ++ (if last then "/" else "")) =
      some ⟨two, (Path.names ((if two then "//" else "/") ++ stem ++
        (if last then "/" else ""))).reverse, last⟩ := by
  obtain ⟨c, hc, hcs⟩ := h.first
  obtain ⟨d, hd, hds⟩ := h.last
  obtain ⟨more, hm⟩ := List.head?_eq_some_iff.mp hc
  rw [hm] at hd
  have hend : (c :: (more ++ ['/'])).getLast? = some '/' := by
    rw [← List.cons_append, List.getLast?_concat]
  simp only [separator] at hcs hds
  cases two <;> cases last <;> simp [absolute?, isAbsolute, separator, hm, hd, hend, hcs, hds]

/-- A path is the one that its text stands for. Of the root the separators in front count as one
at the end too. -/
theorem absolute?_text (h : path.Named) (base : Option String) :
    ∃ same, absolute? base path.text = some same ∧ same.SamePlace path ∧
      same.text = path.text := by
  have hnames := names_text h
  by_cases hr : path.names = []
  · rw [text_root hr]
    cases ht : path.twoSlashes
    · exact ⟨⟨false, [], true⟩, rfl, ⟨ht.symm, hr.symm⟩, rfl⟩
    · exact ⟨⟨true, [], true⟩, rfl, ⟨ht.symm, hr.symm⟩, rfl⟩
  · have hstem : Bare ("/".intercalate path.names.reverse) :=
      bare_intercalate (fun name hn => h name (List.mem_reverse.mp hn)) (by simpa using hr)
    refine ⟨path, ?_, ⟨rfl, rfl⟩, rfl⟩
    have ha := absolute?_of_bare hstem base path.twoSlashes path.trailing
    rw [← text_eq hr, hnames, List.reverse_reverse] at ha
    exact ha

end Absolute

theorem join_append_separator {base : String} {d : Char} (hd : base.toList.getLast? = some d)
    (hs : d ≠ separator) (path : String) : join (base ++ "/") path = join base path := by
  have hne : base.isEmpty = false := by
    rw [String.isEmpty_eq_false_iff]
    rintro rfl
    cases hd
  simp only [separator] at hs
  simp [join, hne, hd, hs, separator]

theorem Absolute.SamePlace.join_text {path other : Absolute} (h : path.SamePlace other)
    (hn : path.Named) (file : String) : join path.text file = join other.text file := by
  have hplain {path : Absolute} (hr : path.names ≠ []) (hn : path.Named) :
      join path.text file = join ((if path.twoSlashes then "//" else "/") ++
        "/".intercalate path.names.reverse) file := by
    obtain ⟨d, hd, hs⟩ :=
      (bare_intercalate (fun name hm => hn name (List.mem_reverse.mp hm)) (by simpa using hr)).last
    rw [text_eq hr]
    cases path.trailing
    · rw [if_neg Bool.false_ne_true, String.append_empty]
    · refine join_append_separator ?_ hs file
      rw [String.toList_append, List.getLast?_append, hd]
      rfl
  by_cases hr : path.names = []
  · rw [text_root hr, text_root (h.names ▸ hr), h.twoSlashes]
  · rw [hplain hr hn, hplain (h.names ▸ hr) (fun name hm => hn name (h.names ▸ hm)), h.twoSlashes,
      h.names]

end Path
end Xref
