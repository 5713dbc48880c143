import Xref.Proofs.Failure

/-!
# The remembered directory

A directory that is remembered stays until a command sets another one. Until then no step looks at
the disk again: two runs that differ in nothing but their worlds cannot be told apart.
-/

namespace Xref

namespace Navigator

-- ---------------------------------------------------------------------------
-- What enters
-- ---------------------------------------------------------------------------

def set? (nav : Navigator) (step : Step) : Option String :=
  match step.command with
  | .setDirectory text => (checkDirectory nav.locator step.world text).toOption
  | _ => none

def Locates (nav : Navigator) (step : Step) (directory : String) : Prop :=
  ∃ kind symbol start, step.command = .find kind symbol ∧ kind.supported = true ∧
    step.world.workingPath = .ok start ∧ nav.locator.locate? step.world start = some directory

def Sets (nav : Navigator) (step : Step) (directory : String) : Prop :=
  ∃ text, step.command = .setDirectory text ∧ (nav.react step).result = .ok () ∧
    checkDirectory nav.locator step.world text = .ok directory

section
variable {nav : Navigator} {step : Step}

theorem set?_eq_none (hc : ∀ text, step.command ≠ .setDirectory text) : nav.set? step = none := by
  cases h : step.command with
  | setDirectory text => exact absurd h (hc text)
  | find | select | popMark => simp [set?, h]

/-- A step remembers what it sets, else what it located, else what was remembered before it. -/
theorem react_directory_eq (nav : Navigator) (step : Step) :
    (nav.react step).navigator.directory =
      (nav.set? step).or ((nav.located? step).or nav.directory) := by
  obtain ⟨r, hx, hreact⟩ := nav.react_exit step
  rw [hreact]
  have hfind {kind : Query.Kind} {symbol : Option String} (hc : step.command = .find kind symbol) :
      nav.set? step = none :=
    set?_eq_none fun text ht => by simp [hc] at ht
  have hask {request : Query.Request} {notices : List Event}
      (ha : Asks nav step request notices) :
      some request.directory = (nav.set? step).or ((nav.located? step).or nav.directory) := by
    obtain ⟨symbol, hc, -⟩ := ha.symbol
    rw [hfind hc]
    exact (located?_of_resolve hc ha.supported ha.resolved).2
  have hother {command : Command} (hc : step.command = command)
      (hf : ∀ kind symbol, command ≠ .find kind symbol) : nav.located? step = none :=
    located?_eq_none (hc ▸ hf)
  cases hx with
  | unsupported hc hk => rw [hfind hc, located?_unsupported hc hk]; rfl
  | unlocated hc hk hr =>
    rw [resolve_eq_located? hc hk, Option.map_eq_none_iff] at hr
    rw [hfind hc, hr]
    exact (Option.or_eq_none_iff.mp hr).2
  | blank hc hk hr hs =>
    rw [hfind hc]
    exact (located?_of_resolve hc hk hr).2
  | unanswered ha | unmatched ha | listed ha => exact hask ha
  | jumped ha =>
    rw [← hask ha]
    simp [asking]
  | outOfRange hc | noMark hc | popped hc =>
    rw [hother hc (by simp), set?_eq_none (by simp [hc])]
    rfl
  | selected hc =>
    rw [hother hc (by simp), set?_eq_none (by simp [hc])]
    simp
  | refused hc hd =>
    rw [hother hc (by simp)]
    simp [set?, hc, hd, Except.toOption]
  | accepted hc hd => simp [set?, hc, hd, Except.toOption]

theorem setDirectory_eq_ok {w : World} {text directory : String}
    (hd : checkDirectory nav.locator w text = .ok directory) :
    nav.setDirectory w text =
      { result := .ok directory
        events := [announcement directory]
        navigator := { nav with directory := some directory } } := by
  unfold setDirectory
  rw [hd]

theorem set?_eq_some {directory : String} (h : nav.set? step = some directory) :
    nav.Sets step directory := by
  cases hc : step.command with
  | setDirectory text =>
    simp only [set?, hc] at h
    have hd : checkDirectory nav.locator step.world text = .ok directory :=
      toOption_eq_some.mp h
    have hs : nav.dispatch step.world step.host step.respond step.command =
        (nav.setDirectory step.world text).map fun _ => () := by
      rw [hc]
      rfl
    refine ⟨text, hc, ?_, hd⟩
    rw [react, run_eq, hs, setDirectory_eq_ok hd]
    rfl
  | find | select | popMark => simp [set?, hc] at h

theorem located?_locates {directory : String} (h : nav.located? step = some directory) :
    nav.Locates step directory := by
  obtain ⟨⟨kind, symbol, hc⟩, -, start, hw, hl⟩ := located?_eq_some h
  refine ⟨kind, symbol, start, hc, ?_, hw, hl⟩
  cases hk : kind.supported with
  | true => rfl
  | false =>
    rw [located?_unsupported hc hk] at h
    cases h

theorem located?_of_directory {directory : String} (hd : nav.directory = some directory) :
    nav.located? step = none := by
  cases hl : nav.located? step with
  | none => rfl
  | some found =>
    obtain ⟨-, hn, -⟩ := located?_eq_some hl
    rw [hd] at hn
    cases hn

theorem react_directory_of_some {directory : String} (hd : nav.directory = some directory) :
    (nav.react step).navigator.directory = some ((nav.set? step).getD directory) := by
  rw [react_directory_eq, located?_of_directory hd, hd]
  cases nav.set? step <;> rfl

end

def sets (nav : Navigator) : List Step → List String
  | [] => []
  | step :: rest => (nav.set? step).toList ++ (nav.react step).navigator.sets rest

/-- The last directory that was set counts, and before the first the one that was there. -/
theorem after_directory {nav : Navigator} {directory : String}
    (hd : nav.directory = some directory) (steps : List Step) :
    (nav.after steps).directory = some ((nav.sets steps).getLast?.getD directory) := by
  induction steps generalizing nav directory with
  | nil => exact hd
  | cons step rest ih =>
    rw [after_cons, ih (react_directory_of_some hd), sets]
    cases nav.set? step <;> simp [List.getLast?_cons]

-- ---------------------------------------------------------------------------
-- Two runs
-- ---------------------------------------------------------------------------

end Navigator

/-- Those that a run deals with. What they show and answer may go by all that happened before. -/
structure Partners where
  host : List (Reaction Unit) → Host
  respond : List (Reaction Unit) → Responder

namespace Navigator

def reactions (nav : Navigator) (partners : Partners) (seen : List (Reaction Unit)) :
    List (World × Command) → List (Reaction Unit)
  | [] => []
  | (w, command) :: rest =>
    let r := nav.react ⟨w, partners.host seen, partners.respond seen, command⟩
    r :: r.navigator.reactions partners (seen ++ [r]) rest

theorem react_world {nav : Navigator} {directory : String} (hd : nav.directory = some directory)
    {command : Command} (hc : ∀ text, command ≠ .setDirectory text) (w w' : World) (host : Host)
    (respond : Responder) :
    nav.react ⟨w, host, respond, command⟩ = nav.react ⟨w', host, respond, command⟩ := by
  cases command with
  | find kind symbol => simp [react, run_eq, dispatch, find, resolve, hd]
  | select | popMark => rfl
  | setDirectory text => exact absurd rfl (hc text)

theorem reactions_eq {nav : Navigator} {directory : String} (hd : nav.directory = some directory)
    (partners : Partners) {first second : List (World × Command)}
    (hc : first.map Prod.snd = second.map Prod.snd)
    (hn : ∀ entry ∈ first, ∀ text, entry.2 ≠ .setDirectory text)
    (seen : List (Reaction Unit)) :
    nav.reactions partners seen first = nav.reactions partners seen second := by
  induction first generalizing nav directory seen second with
  | nil =>
    obtain rfl : second = [] := List.map_eq_nil_iff.mp hc.symm
    rfl
  | cons entry first ih =>
    obtain ⟨w, command⟩ := entry
    obtain ⟨⟨w', command'⟩, second, rfl⟩ : ∃ entry rest, second = entry :: rest := by
      cases second with
      | nil => simp at hc
      | cons entry rest => exact ⟨entry, rest, rfl⟩
    obtain ⟨rfl, hrest⟩ := List.cons.inj hc
    have hset : ∀ text, command ≠ .setDirectory text := hn _ List.mem_cons_self
    have hw := react_world hd hset w w' (partners.host seen) (partners.respond seen)
    let step : Step := ⟨w, partners.host seen, partners.respond seen, command⟩
    have hdirectory : (nav.react step).navigator.directory =
        some ((nav.set? step).getD directory) :=
      react_directory_of_some hd
    simp only [reactions]
    rw [← hw, ih hdirectory hrest fun entry he => hn entry (List.mem_cons_of_mem _ he)]

/-- A directory comes to be remembered by an upward search that succeeds or by being set. Once there
is one there always is one, and only a set puts another in its place. From then on the worlds of a
run without a set leave no trace: host and query program cannot tell them apart, and all that is
told, asked and remembered is the same. -/
theorem directory_remembered (start : Navigator) :
    (∀ steps step directory,
      ((start.after steps).react step).navigator.directory = some directory →
        (start.after steps).directory = some directory ∨
          (start.after steps).Sets step directory ∨
          (start.after steps).directory = none ∧ (start.after steps).Locates step directory) ∧
    (∀ before after directory, (start.after before).directory = some directory →
      (start.after (before ++ after)).directory =
        some (((start.after before).sets after).getLast?.getD directory)) ∧
    (∀ directory, start.directory = some directory →
      ∀ (partners : Partners) (first second : List (World × Command)),
        first.map Prod.snd = second.map Prod.snd →
        (∀ entry ∈ first, ∀ text, entry.2 ≠ .setDirectory text) →
        start.reactions partners [] first = start.reactions partners [] second) := by
  refine ⟨?_, ?_, ?_⟩
  · intro steps step directory h
    rw [react_directory_eq, Option.or_eq_some_iff, Option.or_eq_some_iff] at h
    obtain hs | ⟨-, hl | ⟨-, hd⟩⟩ := h
    · exact .inr (.inl (set?_eq_some hs))
    · exact .inr (.inr ⟨(located?_eq_some hl).2.1, located?_locates hl⟩)
    · exact .inl hd
  · intro before after directory hd
    rw [after_append]
    exact after_directory hd after
  · intro directory hd partners first second hc hn
    exact reactions_eq hd partners hc hn []

end Navigator

namespace Sample

def bare : World := { world with files := FileSystem.empty, workingDirectory := ⟨["p"], 1⟩ }

def partners : Partners where
  host seen := (⟨"main.c", 7, some "run"⟩ : Host).followAll (seen.flatMap (·.events))
  respond _ _ := .ok twoMatches

def commands : List Command := [.find .callers none, .select 1, .popMark, .find .file (some "b")]

end Sample

namespace Navigator

theorem directory_remembered_bare :
    (Sample.fresh.after [Sample.step [] (.find .callers none),
        Sample.step [] (.setDirectory "/q")]).directory = some "/q" ∧
      Sample.listed.reactions Sample.partners [] (Sample.commands.map (Sample.world, ·)) =
        Sample.listed.reactions Sample.partners [] (Sample.commands.map (Sample.bare, ·)) ∧
      (Sample.listed.reactions Sample.partners [] (Sample.commands.map (Sample.bare, ·))).map
          (·.requests) =
        [[⟨.callers, "run", "/p"⟩], [], [], [⟨.file, "b", "/p"⟩]] := by
  have hd : (Sample.fresh.after [Sample.step [] (.find .callers none)]).directory = some "/p" := by
    decide +kernel
  have hs : ((Sample.fresh.after [Sample.step [] (.find .callers none)]).sets
      [Sample.step [] (.setDirectory "/q")]) = ["/q"] := by
    decide +kernel
  have hrun := (directory_remembered Sample.fresh).2.1 _ [Sample.step [] (.setDirectory "/q")] _ hd
  rw [hs] at hrun
  refine ⟨hrun, ?_, by decide +kernel⟩
  refine (directory_remembered Sample.listed).2.2 "/p" (by decide +kernel) _ _ _ ?_ ?_
  · simp [List.map_map, Function.comp_def]
  · simp [Sample.commands]

end Navigator
end Xref
