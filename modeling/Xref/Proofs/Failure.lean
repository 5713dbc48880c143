import Xref.Proofs.Run

/-!
# What a failure leaves behind

A command that fails tells the host one status, and before that at most the directory that it
located. It saves no mark and sends the host nowhere. Two things may differ after it: a directory
that was located stays remembered, and a list of matches is gone once the query program was asked.
-/

namespace Xref

def NavigationError.OfAnswer : NavigationError → Prop
  | .noMatches | .query _ => True
  | _ => False

namespace Navigator

-- ---------------------------------------------------------------------------
-- Locating
-- ---------------------------------------------------------------------------

/-- The directory that a find locates in this step, when none was remembered. -/
def located? (nav : Navigator) (step : Step) : Option String :=
  match step.command, nav.directory with
  | .find kind _, none =>
    if kind.supported then
      step.world.workingPath.toOption.bind (nav.locator.locate? step.world)
    else none
  | _, _ => none

section
variable {nav : Navigator} {step : Step}

theorem located?_eq_none (hc : ∀ kind symbol, step.command ≠ .find kind symbol) :
    nav.located? step = none := by
  cases hf : step.command with
  | find kind symbol => exact absurd hf (hc kind symbol)
  | select | popMark | setDirectory => simp [located?, hf]

theorem located?_unsupported {kind : Query.Kind} {symbol : Option String}
    (hc : step.command = .find kind symbol) (hk : kind.supported = false) :
    nav.located? step = none := by
  cases hd : nav.directory <;> simp [located?, hc, hd, hk]

theorem resolve_eq_located? {kind : Query.Kind} {symbol : Option String}
    (hc : step.command = .find kind symbol) (hk : kind.supported = true) :
    nav.resolve step.world =
      ((nav.located? step).or nav.directory).map fun directory =>
        (directory, (nav.located? step).toList.map announcement) := by
  cases hd : nav.directory with
  | some directory => simp [resolve, located?, hc, hd]
  | none =>
    cases hw : step.world.workingPath with
    | error e => simp [resolve, located?, hc, hd, hw, Except.toOption]
    | ok start =>
      cases hl : nav.locator.locate? step.world start <;>
        simp [resolve, located?, hc, hd, hk, hw, hl, Except.toOption]

theorem located?_of_resolve {kind : Query.Kind} {symbol : Option String} {directory : String}
    {notices : List Event} (hc : step.command = .find kind symbol) (hk : kind.supported = true)
    (hr : nav.resolve step.world = some (directory, notices)) :
    notices = (nav.located? step).toList.map announcement ∧
      some directory = (nav.located? step).or nav.directory := by
  rw [resolve_eq_located? hc hk] at hr
  obtain ⟨found, hf, he⟩ := Option.map_eq_some_iff.mp hr
  obtain ⟨rfl, rfl⟩ := Prod.mk.inj he
  exact ⟨rfl, hf.symm⟩

theorem Asks.located {request : Query.Request} {notices : List Event}
    (ha : Asks nav step request notices) :
    notices = (nav.located? step).toList.map announcement ∧
      some request.directory = (nav.located? step).or nav.directory := by
  obtain ⟨symbol, hc, -⟩ := ha.symbol
  exact located?_of_resolve hc ha.supported ha.resolved

end

-- ---------------------------------------------------------------------------
-- Failures
-- ---------------------------------------------------------------------------

structure Leaves (nav : Navigator) (step : Step) (e : NavigationError) (r : Reaction Unit) :
    Prop where
  events : r.events = (nav.located? step).toList.map announcement ++ [.status e.message]
  history : r.navigator.history = nav.history
  directory : r.navigator.directory = (nav.located? step).or nav.directory
  choices : r.navigator.choices = if r.requests = [] then nav.choices else none
  asked : r.requests ≠ [] ↔ e.OfAnswer
  /-- Once the directory is found only the symbol can be missing before the request. -/
  located : nav.located? step ≠ none → e = .emptySymbol ∨ e.OfAnswer

section
variable {nav : Navigator} {step : Step} {e : NavigationError}

theorem leaves_unchanged (hl : nav.located? step = none) (he : ¬e.OfAnswer) :
    Leaves nav step e
      { result := .error e, events := [.status e.message], navigator := nav } where
  events := by simp [hl]
  history := rfl
  directory := by simp [hl]
  choices := rfl
  asked := by simpa using he
  located h := absurd hl h

theorem leaves_asking {request : Query.Request} {notices : List Event}
    (ha : Asks nav step request notices) (he : e.OfAnswer) :
    Leaves nav step e
      { result := .error e
        events := notices ++ [.status e.message]
        requests := [request]
        navigator := nav.asking request } := by
  obtain ⟨hn, hd⟩ := ha.located
  exact {
    events := by rw [hn]
    history := rfl
    directory := hd
    choices := rfl
    asked := by simpa using he
    located := fun _ => .inr he }

theorem ofAnswer_refusal (error : Query.Error) : (refusal error).OfAnswer := by
  unfold refusal
  split <;> trivial

theorem react_leaves (h : (nav.react step).result = .error e) :
    Leaves nav step e (nav.react step) := by
  obtain ⟨r, hx, hreact⟩ := nav.react_exit step
  rw [hreact] at h ⊢
  have hother {command : Command} (hc : step.command = command)
      (hn : ∀ kind symbol, command ≠ .find kind symbol) : nav.located? step = none :=
    located?_eq_none (hc ▸ hn)
  cases hx with
  | jumped | listed | selected | popped | accepted => cases h
  | unsupported hc hk =>
    cases h
    exact leaves_unchanged (located?_unsupported hc hk) id
  | unlocated hc hk hr =>
    cases h
    rw [resolve_eq_located? hc hk, Option.map_eq_none_iff, Option.or_eq_none_iff] at hr
    exact leaves_unchanged hr.1 id
  | outOfRange hc | noMark hc | refused hc =>
    cases h
    exact leaves_unchanged (hother hc (by simp)) id
  | blank hc hk hr hs =>
    cases h
    obtain ⟨hn, hd⟩ := located?_of_resolve hc hk hr
    exact {
      events := by rw [hn]; rfl
      history := rfl
      directory := hd
      choices := rfl
      asked := by simp [NavigationError.OfAnswer]
      located := fun _ => .inl rfl }
  | unanswered ha he =>
    cases h
    exact leaves_asking ha (ofAnswer_refusal _)
  | unmatched ha ho hl =>
    cases h
    exact leaves_asking ha trivial

theorem located?_eq_some {directory : String} (h : nav.located? step = some directory) :
    (∃ kind symbol, step.command = .find kind symbol) ∧ nav.directory = none ∧
      ∃ start, step.world.workingPath = .ok start ∧
        nav.locator.locate? step.world start = some directory := by
  unfold located? at h
  split at h
  · next hc hd =>
    split at h
    · obtain ⟨start, hs, hl⟩ := Option.bind_eq_some_iff.mp h
      exact ⟨⟨_, _, hc⟩, hd, start, toOption_eq_some.mp hs, hl⟩
    · cases h
  · cases h

/-- A step that fails leaves the marks alone and shows nothing but statuses: the failure, once and
last, and before it the directory if the step is a find that located one. -/
theorem failure_reported_once (h : (nav.react step).result = .error e) :
    (nav.react step).navigator.history = nav.history ∧
      (∀ event ∈ (nav.react step).events, ∃ text, event = .status text) ∧
      (nav.react step).events =
        (nav.located? step).toList.map announcement ++ [.status e.message] ∧
      ∀ directory, nav.located? step = some directory →
        (∃ kind symbol, step.command = .find kind symbol) ∧ nav.directory = none ∧
          (∃ start, step.world.workingPath = .ok start ∧
            nav.locator.locate? step.world start = some directory) ∧
          (nav.react step).navigator.directory = some directory := by
  have hleft := react_leaves h
  refine ⟨hleft.history, ?_, hleft.events, fun directory hd => ?_⟩
  · rw [hleft.events]
    intro event he
    rcases List.mem_append.mp he with hn | hs
    · obtain ⟨directory, -, rfl⟩ := List.mem_map.mp hn
      exact ⟨_, rfl⟩
    · exact ⟨_, List.mem_singleton.mp hs⟩
  · obtain ⟨hc, hn, hl⟩ := located?_eq_some hd
    rw [hleft.directory, hd]
    exact ⟨hc, hn, hl, rfl⟩

end

end Navigator

namespace Sample

def listed : Navigator := fresh.after [step twoMatches (.find .callers none)]

def wordless : Step := { step [] (.find .callers none) with host := ⟨"main.c", 7, none⟩ }

end Sample

namespace Navigator

theorem failure_reported_once_after_locating :
    (Sample.fresh.react Sample.wordless).result = .error .emptySymbol ∧
      (Sample.fresh.react Sample.wordless).navigator.history = Sample.fresh.history ∧
      (Sample.fresh.react Sample.wordless).events =
        [.status "symbol database at: /p", .status "empty symbol"] := by
  have h : (Sample.fresh.react Sample.wordless).result = .error .emptySymbol := by decide +kernel
  have hl : Sample.fresh.located? Sample.wordless = some "/p" := by decide +kernel
  obtain ⟨hm, -, he, -⟩ := failure_reported_once h
  rw [hl] at he
  exact ⟨h, hm, he⟩

/-- A failure can change the context: a find without a symbol keeps the directory that it located,
and one without matches drops the list. -/
theorem failure_changes_context :
    Initial Sample.fresh ∧
      ((Sample.fresh.react Sample.wordless).result = .error .emptySymbol ∧
        Sample.fresh.directory = none ∧
        (Sample.fresh.react Sample.wordless).navigator.directory = some "/p") ∧
      (Sample.listed.react (Sample.step [] (.find .callers none))).result = .error .noMatches ∧
        Sample.listed.choices = some ⟨"/p", Listing.records Sample.twoMatches⟩ ∧
        (Sample.listed.react (Sample.step [] (.find .callers none))).navigator.choices = none := by
  refine ⟨.fresh {} 4, ?_, ?_⟩ <;> decide +kernel

/-- A failure leaves the directory as it was, unless there was none and a find located one, which
stays. It leaves the list as it was, unless the query program was asked, which drops it. -/
theorem failure_keeps_context {nav : Navigator} {step : Step} {e : NavigationError}
    (h : (nav.react step).result = .error e) :
    ((nav.react step).navigator.directory = nav.directory ∧ nav.located? step = none ∨
        ∃ directory, nav.located? step = some directory ∧ nav.directory = none ∧
          (nav.react step).navigator.directory = some directory ∧
          (e = .emptySymbol ∨ e.OfAnswer)) ∧
      ((nav.react step).navigator.choices = nav.choices ∧ (nav.react step).requests = [] ∧
          ¬e.OfAnswer ∨
        (nav.react step).navigator.choices = none ∧ (nav.react step).requests ≠ [] ∧
          e.OfAnswer) := by
  have hleft := react_leaves h
  constructor
  · cases hl : nav.located? step with
    | none => exact .inl ⟨by rw [hleft.directory, hl]; rfl, rfl⟩
    | some directory =>
      exact .inr ⟨directory, rfl, (located?_eq_some hl).2.1, by rw [hleft.directory, hl]; rfl,
        hleft.located (by simp [hl])⟩
  · by_cases hq : (nav.react step).requests = []
    · exact .inl ⟨by rw [hleft.choices, if_pos hq], hq, fun ho => hleft.asked.mpr ho hq⟩
    · exact .inr ⟨by rw [hleft.choices, if_neg hq], hq, hleft.asked.mp hq⟩

theorem failure_keeps_context_selection :
    (Sample.listed.react (Sample.step [] (.select 2))).result =
        .error (.selectionOutOfRange 2 2) ∧
      (Sample.listed.react (Sample.step [] (.select 2))).navigator.directory = some "/p" ∧
      (Sample.listed.react (Sample.step [] (.select 2))).navigator.choices =
        some ⟨"/p", Listing.records Sample.twoMatches⟩ := by
  have h : (Sample.listed.react (Sample.step [] (.select 2))).result =
      .error (.selectionOutOfRange 2 2) := by decide +kernel
  have hd : Sample.listed.directory = some "/p" ∧
      Sample.listed.choices = some ⟨"/p", Listing.records Sample.twoMatches⟩ := by
    decide +kernel
  obtain ⟨⟨hk, -⟩ | ⟨_, -, hn, -⟩, ⟨hc, -⟩ | ⟨-, -, ho⟩⟩ := failure_keeps_context h
  · exact ⟨h, hk.trans hd.1, hc.trans hd.2⟩
  · exact ho.elim
  all_goals exact absurd (hd.1.symm.trans hn) (by simp)

end Navigator
end Xref
