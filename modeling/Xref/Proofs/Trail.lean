import Xref.Proofs.Run

/-!
# The way back

A host that stays where a command leaves it, with the marks below it, is a trail: a jump puts a
place in front, a return takes the front away, and nothing else touches it. What lay under a run
that never went below its start is therefore still there at its end.
-/

namespace Xref

structure Visit where
  navigator : Navigator
  host : Host

namespace Visit

/-- The step taken from where the host is. Of its own host only the word counts. -/
def placed (v : Visit) (step : Step) : Step :=
  { step with host := { v.host with word := step.host.word } }

def react (v : Visit) (step : Step) : Reaction Unit := v.navigator.react (v.placed step)

def move (v : Visit) (step : Step) : Visit :=
  ⟨(v.react step).navigator, (v.placed step).host.followAll (v.react step).events⟩

def tour (v : Visit) (steps : List Step) : Visit := steps.foldl move v

def depth (v : Visit) : Nat := v.navigator.history.depth

def trail (v : Visit) : List Mark := v.host.mark :: v.navigator.history.marks

/-- The host is sent to a record, and there is no room for the mark to return to. -/
def Rejects (v : Visit) (step : Step) : Prop :=
  (∃ path line, .opened path line ∈ (v.react step).events) ∧
    ∃ e, v.navigator.history.push v.host.mark = .error e

@[simp] theorem tour_nil (v : Visit) : v.tour [] = v := rfl

@[simp] theorem tour_concat (v : Visit) (steps : List Step) (step : Step) :
    v.tour (steps ++ [step]) = (v.tour steps).move step := by
  simp [tour]

theorem length_trail (v : Visit) : v.trail.length = v.depth + 1 := by
  simp [trail, depth, v.navigator.history.depth_eq]

end Visit

-- ---------------------------------------------------------------------------
-- One step
-- ---------------------------------------------------------------------------

def Event.Still : Event → Prop
  | .status _ | .choices _ => True
  | .opened .. | .restored _ => False

def Still (events : List Event) : Prop := ∀ event ∈ events, event.Still

theorem still_nil : Still [] := by simp [Still]

theorem still_status (text : String) : Still [.status text] := by simp [Still, Event.Still]

theorem still_choices (records : List Record) : Still [.choices records] := by
  simp [Still, Event.Still]

theorem Still.append {first second : List Event} (hf : Still first) (hs : Still second) :
    Still (first ++ second) :=
  fun event he => (List.mem_append.mp he).elim (hf event) (hs event)

theorem Still.followAll {events : List Event} (h : Still events) (host : Host) :
    host.followAll events = host := by
  induction events with
  | nil => rfl
  | cons event rest ih =>
    have hr : host.followAll rest = host := ih fun e he => h e (List.mem_cons_of_mem _ he)
    have hf : host.follow event = host := by
      have hs := h event (by simp)
      cases event with
      | status | choices => rfl
      | opened | restored => exact hs.elim
    simpa [Host.followAll, hf] using hr

/-- What a command does to the history, and to the place of the host that follows its events. -/
inductive Shift (history : History) (host : Host) (events : List Event) : History → Prop
  | stays (hm : (host.followAll events).mark = host.mark) : Shift history host events history
  | saved {later} (hp : history.push host.mark = .ok later) : Shift history host events later
  | unsaved {e path line} (hp : history.push host.mark = .error e)
      (ho : .opened path line ∈ events) : Shift history host events history
  | returned {mark later} (hp : history.pop = .ok (mark, later))
      (hm : (host.followAll events).mark = mark) : Shift history host events later

theorem Still.shift {events : List Event} (h : Still events) (history : History) (host : Host) :
    Shift history host events history :=
  .stays (by rw [h.followAll])

namespace Navigator

theorem still_report (result : Except NavigationError Unit) : Still (report result) := by
  cases result with
  | ok _ => exact still_nil
  | error e => exact still_status e.message

theorem still_notices {nav : Navigator} {w : World} {directory : String} {notices : List Event}
    (hr : nav.resolve w = some (directory, notices)) : Still notices := by
  rcases resolve_eq_some.mp hr with ⟨-, rfl⟩ | ⟨-, rfl, -⟩
  · exact still_nil
  · exact still_status _

theorem jump_shift (nav : Navigator) (host : Host) (directory : String) (record : Record)
    {events : List Event} (he : (nav.jump host directory record).2 ⊆ events) :
    Shift nav.history host events (nav.jump host directory record).1.history := by
  have ho : .opened (Path.join directory record.file) record.line ∈ events := by
    obtain ⟨text, ht⟩ := nav.jump_events host directory record
    exact he (by simp [ht])
  simp only [jump]
  cases hp : nav.history.push host.mark with
  | ok later => exact .saved hp
  | error e => exact .unsaved hp ho

theorem react_shift (nav : Navigator) (step : Step) :
    Shift nav.history step.host (nav.react step).events (nav.react step).navigator.history := by
  obtain ⟨r, hx, hreact⟩ := nav.react_exit step
  rw [hreact]
  cases hx with
  | unsupported | unlocated | outOfRange | noMark | refused =>
    exact (still_nil.append (still_report _)).shift _ _
  | blank hc hk hr hs => exact ((still_notices hr).append (still_report _)).shift _ _
  | unanswered ha | unmatched ha =>
    exact ((still_notices ha.resolved).append (still_report _)).shift _ _
  | @jumped request _ _ record ha ho hl =>
    exact jump_shift (nav.asking request) step.host request.directory record fun event he =>
      List.mem_append_left _ (List.mem_append_right _ he)
  | listed ha ho hl =>
    refine Still.shift ?_ _ _
    exact ((still_notices ha.resolved).append (still_choices _)).append (still_report _)
  | selected hc hn hr => exact jump_shift _ _ _ _ (List.subset_append_left _ _)
  | popped hc hp => exact .returned hp rfl
  | accepted hc hd => exact ((still_status _).append (still_report _)).shift _ _

end Navigator

theorem Shift.capacity {history later : History} {host : Host} {events : List Event}
    (h : Shift history host events later) : later.capacity = history.capacity := by
  cases h with
  | stays | unsaved => rfl
  | saved hp => exact (History.push_eq_ok_iff.mp hp).2.1
  | returned hp hm => exact (History.pop_eq_ok_iff.mp hp).2

namespace Visit

theorem move_shift (v : Visit) (step : Step) :
    Shift v.navigator.history (v.placed step).host (v.react step).events
      (v.move step).navigator.history :=
  v.navigator.react_shift (v.placed step)

theorem capacity_move (v : Visit) (step : Step) :
    (v.move step).navigator.history.capacity = v.navigator.history.capacity :=
  (v.move_shift step).capacity

theorem trail_move {v : Visit} {step : Step} (hr : ¬v.Rejects step) :
    (v.move step).trail = v.trail ∨ (∃ place, (v.move step).trail = place :: v.trail) ∨
      (v.move step).trail = v.navigator.history.marks := by
  have hs := v.move_shift step
  generalize hl : (v.move step).navigator.history = later at hs
  cases hs with
  | stays hm => exact .inl (congrArg₂ List.cons hm (by rw [hl]))
  | saved hp =>
    refine .inr (.inl ⟨(v.move step).host.mark, ?_⟩)
    rw [trail, hl, (History.push_eq_ok_iff.mp hp).2.2]
    rfl
  | unsaved hp ho => exact absurd ⟨⟨_, _, ho⟩, _, hp⟩ hr
  | returned hp hm =>
    refine .inr (.inr ?_)
    rw [(History.pop_eq_ok_iff.mp hp).1, trail, hl]
    exact congrArg (· :: _) hm

-- ---------------------------------------------------------------------------
-- A whole tour
-- ---------------------------------------------------------------------------

theorem capacity_tour (v : Visit) (steps : List Step) :
    (v.tour steps).navigator.history.capacity = v.navigator.history.capacity := by
  induction steps using List.reverseRecOn with
  | nil => rfl
  | append_singleton steps step ih => rw [tour_concat, capacity_move, ih]

/-- The trail of the start lies under all that a tour adds, as long as the tour stays above it. -/
theorem trail_suffix_tour {v : Visit} {steps : List Step}
    (hr : ∀ pre step, pre ++ [step] <+: steps → ¬(v.tour pre).Rejects step)
    (hd : ∀ pre, pre <+: steps → v.depth ≤ (v.tour pre).depth) :
    v.trail <:+ (v.tour steps).trail := by
  induction steps using List.reverseRecOn with
  | nil => exact List.suffix_rfl
  | append_singleton steps step ih =>
    have hs : v.trail <:+ (v.tour steps).trail :=
      ih (fun pre s h => hr pre s (h.trans (List.prefix_append _ _)))
        (fun pre h => hd pre (h.trans (List.prefix_append _ _)))
    have hdepth := hd (steps ++ [step]) List.prefix_rfl
    rw [tour_concat] at hdepth ⊢
    rcases trail_move (hr steps step List.prefix_rfl) with h | ⟨place, h⟩ | h
    · rw [h]
      exact hs
    · rw [h]
      exact hs.trans (List.suffix_cons _ _)
    · -- The front that was taken away is no part of the start: what is left is long enough.
      rw [h]
      rcases List.suffix_cons_iff.mp hs with he | hs
      · have hn := congrArg List.length he
        have hl := congrArg List.length h
        simp only [length_trail, List.length_cons] at hn hl
        omega
      · exact hs

/-- A tour that never goes below its start, and ends as deep, ends in the same place with the same
marks. -/
theorem tour_returns {v : Visit} {steps : List Step}
    (hr : ∀ pre step, pre ++ [step] <+: steps → ¬(v.tour pre).Rejects step)
    (hd : ∀ pre, pre <+: steps → v.depth ≤ (v.tour pre).depth)
    (he : (v.tour steps).depth = v.depth) :
    (v.tour steps).navigator.history = v.navigator.history ∧
      (v.tour steps).host.mark = v.host.mark := by
  have ht : v.trail = (v.tour steps).trail := by
    refine (trail_suffix_tour hr hd).eq_of_length ?_
    rw [length_trail, length_trail, he]
  obtain ⟨hp, hm⟩ := List.cons.inj ht
  exact ⟨History.ext (v.capacity_tour steps) hm.symm, hp.symm⟩

end Visit

namespace Sample

def visit : Visit :=
  ⟨{ locator := {}, history := ⟨4, [⟨"old.c", 3⟩], 1, rfl⟩ }, ⟨"main.c", 7, none⟩⟩

/-- A jump, a jump from a list inside it, and both ways back, with a failure on the way. -/
def roundTrip : List Step :=
  [step oneMatch (.find .symbol none), step twoMatches (.find .callers none),
    step [] (.select 1), step [] (.select 2), step [] .popMark, step [] .popMark]

end Sample

namespace Visit

theorem tour_returns_roundTrip :
    (Sample.visit.tour (Sample.roundTrip.take 3)).depth = 3 ∧
      (Sample.visit.tour Sample.roundTrip).navigator.history = Sample.visit.navigator.history ∧
      (Sample.visit.tour Sample.roundTrip).host.mark = ⟨"main.c", 7⟩ := by
  have hroom : ∀ n < 7, Sample.visit.depth ≤ (Sample.visit.tour (Sample.roundTrip.take n)).depth ∧
      (Sample.visit.tour (Sample.roundTrip.take n)).depth < 4 := by
    decide +kernel
  have hpre {pre : List Step} (h : pre <+: Sample.roundTrip) :
      pre = Sample.roundTrip.take pre.length ∧ pre.length < 7 :=
    ⟨List.prefix_iff_eq_take.mp h, Nat.lt_succ_of_le h.length_le⟩
  refine ⟨by decide +kernel, tour_returns (fun pre step h => ?_) (fun pre h => ?_)
    (by decide +kernel)⟩
  · rintro ⟨-, e, he⟩
    have hfull := (History.push_eq_error_iff.mp he).1
    obtain ⟨hp, hn⟩ := hpre ((List.prefix_append pre [step]).trans h)
    have hlt := (hroom pre.length hn).2
    rw [← hp] at hlt
    rw [Sample.visit.capacity_tour] at hfull
    exact absurd hlt (Nat.not_lt.mpr hfull)
  · obtain ⟨hp, hn⟩ := hpre h
    rw [hp]
    exact (hroom pre.length hn).1

end Visit
end Xref
