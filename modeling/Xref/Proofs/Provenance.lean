import Xref.Proofs.Run

/-!
# Where the list of matches comes from

A run leaves a list to select from exactly when its last request was answered with two matches or
more. The list is then that answer's, and its directory that request's, whatever was selected,
popped or set since.
-/

namespace Xref

def Exchange.choices (e : Exchange) : Option Choices :=
  match e.answer with
  | .error _ => none
  | .ok output =>
    if 2 ≤ (Listing.records output).length then
      some ⟨e.request.directory, Listing.records output⟩
    else none

theorem Exchange.choices_eq_some {e : Exchange} {list : Choices} :
    e.choices = some list ↔
      ∃ output, e.answer = .ok output ∧ 2 ≤ (Listing.records output).length ∧
        list = ⟨e.request.directory, Listing.records output⟩ := by
  unfold choices
  cases e.answer with
  | error _ => simp
  | ok output => simp [eq_comm]

namespace Navigator

/-- A step without a request leaves the list alone; a request leaves what its answer says. -/
theorem react_choices (nav : Navigator) (step : Step) :
    (nav.react step).navigator.choices =
      ((nav.react step).requests.map step.exchange).getLast?.elim nav.choices
        Exchange.choices := by
  obtain ⟨r, hx, hreact⟩ := nav.react_exit step
  rw [hreact]
  cases hx with
  | unanswered ha he => simp [asking, Step.exchange, Exchange.choices, he]
  | unmatched ha ho hl => simp [asking, Step.exchange, Exchange.choices, ho, hl]
  | jumped ha ho hl => simp [asking, Step.exchange, Exchange.choices, ho, hl]
  | listed ha ho hl => simp [Step.exchange, Exchange.choices, ho, hl]
  | selected hc hn hr => simp
  | unsupported | unlocated | blank | outOfRange | noMark | popped | refused | accepted => rfl

theorem after_choices (nav : Navigator) (steps : List Step) :
    (nav.after steps).choices =
      (nav.exchanges steps).getLast?.elim nav.choices Exchange.choices := by
  induction steps using List.reverseRecOn with
  | nil => rfl
  | append_singleton steps step ih =>
    rw [after_concat, react_choices, exchanges_concat, List.getLast?_append, ih]
    cases (((nav.after steps).react step).requests.map step.exchange).getLast? <;> rfl

theorem Initial.choices_eq_none {nav : Navigator} (h : Initial nav) : nav.choices = none :=
  h.untouched.1

/-- The list is there exactly when the last answer of the run held two matches or more, and it is
that answer's list under that request's directory. It never holds fewer, and no step without a
request changes it, which goes for every command but a find. -/
theorem choices_provenance {start : Navigator} (hs : Initial start) (steps : List Step) :
    (∀ list, (start.after steps).choices = some list ↔
      ∃ e output, (start.exchanges steps).getLast? = some e ∧ e.answer = .ok output ∧
        2 ≤ (Listing.records output).length ∧
        list = ⟨e.request.directory, Listing.records output⟩) ∧
    (∀ list, (start.after steps).choices = some list → 2 ≤ list.records.length) ∧
    ∀ step : Step,
      ((∀ kind symbol, step.command ≠ .find kind symbol) ∨
        ((start.after steps).react step).requests = []) →
      ((start.after steps).react step).navigator.choices = (start.after steps).choices := by
  have hlast (list : Choices) : (start.after steps).choices = some list ↔
      ∃ e, (start.exchanges steps).getLast? = some e ∧ e.choices = some list := by
    rw [after_choices, hs.choices_eq_none]
    cases (start.exchanges steps).getLast? <;> simp
  refine ⟨fun list => ?_, fun list hl => ?_, fun step hq => ?_⟩
  · rw [hlast]
    simp only [Exchange.choices_eq_some, exists_and_left]
  · obtain ⟨e, -, he⟩ := (hlast list).mp hl
    obtain ⟨output, -, hn, rfl⟩ := Exchange.choices_eq_some.mp he
    exact hn
  · have hn : ((start.after steps).react step).requests = [] :=
      hq.elim react_requests_eq_nil id
    rw [react_choices, hn]
    rfl

theorem choices_provenance_after_setDirectory :
    Initial { locator := {}, history := { capacity := 4 } } ∧
      (({ locator := {}, history := { capacity := 4 } } : Navigator).after
        [Sample.step Sample.twoMatches (.find .callers none),
          Sample.step Sample.twoMatches (.setDirectory "/q")]).choices =
        some ⟨"/p", Listing.records Sample.twoMatches⟩ := by
  have hs : Initial { locator := {}, history := { capacity := 4 } } := .fresh {} 4
  refine ⟨hs, ((choices_provenance hs _).1 _).mpr ?_⟩
  exact ⟨⟨⟨.callers, "run", "/p"⟩, .ok Sample.twoMatches⟩, Sample.twoMatches, by decide +kernel,
    rfl, by decide +kernel, rfl⟩

end Navigator
end Xref
