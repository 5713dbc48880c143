import Xref.Proofs.Failure

/-!
# Jumps and marks

A jump opens one record, after one status that says whether the mark was saved. Nothing else opens
a record, and nothing but jumps and returns touches the marks. So there are as many marks as were
saved, less those that were returned to.
-/

namespace Xref

def Event.isOpened : Event → Bool
  | .opened .. => true
  | .status _ | .restored _ | .choices _ => false

def savedText (mark : Mark) : String :=
  "saved offset " ++ toString mark.offset ++ " in " ++ mark.buffer

structure Marked (history : History) (mark : Mark) (text : String) (later : History) : Prop where
  told : text = savedText mark ↔ history.depth < history.capacity
  grows : later.depth = history.depth + 1 ↔ history.depth < history.capacity
  saved : history.depth < history.capacity → later.marks = mark :: history.marks
  full : history.capacity ≤ history.depth →
    text = (HistoryError.full history.capacity).message ∧ later = history
  capacity : later.capacity = history.capacity

theorem full_ne_savedText (capacity : Nat) (mark : Mark) :
    (HistoryError.full capacity).message ≠ savedText mark := by
  have hfull : (HistoryError.full capacity).message.toList.head? = some 'n' := by
    unfold HistoryError.message
    simp [String.toList_append]
  have hsaved : (savedText mark).toList.head? = some 's' := by
    simp [savedText, String.toList_append]
  intro h
  rw [h, hsaved] at hfull
  cases hfull

-- ---------------------------------------------------------------------------
-- What a step has done
-- ---------------------------------------------------------------------------

inductive Deed where
  | found (record : Record)
  | listed (count : Nat)
  | selected (record : Record)
  | returned (mark : Mark)
  | directed (directory : String)
  | failed (error : NavigationError)
  deriving DecidableEq, Repr

namespace Deed

def ofResult (deed : α → Deed) : Except NavigationError α → Deed
  | .ok a => deed a
  | .error e => .failed e

def ofOutcome : Outcome → Deed
  | .jumped record => .found record
  | .choices count => .listed count

def destination? : Deed → Option Record
  | .found record | .selected record => some record
  | .listed _ | .returned _ | .directed _ | .failed _ => none

end Deed

namespace Navigator

def deed (nav : Navigator) (step : Step) : Deed :=
  match step.command with
  | .find kind symbol =>
    .ofResult .ofOutcome (nav.find step.world step.host step.respond kind symbol).result
  | .select index => .ofResult .selected (nav.select step.host index).result
  | .popMark => .ofResult .returned nav.popMark.result
  | .setDirectory text => .ofResult .directed (nav.setDirectory step.world text).result

/-- The directory under which a step opens its record: the one that is searched, or the one that
the list came from. -/
def base? (nav : Navigator) (step : Step) : Option String :=
  match step.command with
  | .find .. => (nav.react step).navigator.directory
  | .select _ => nav.choices.map (·.directory)
  | .popMark | .setDirectory _ => none

section
variable {nav : Navigator} {step : Step}

theorem deed_of_error {e : NavigationError} (h : (nav.react step).result = .error e) :
    nav.deed step = .failed e := by
  have hfailed {α : Type} {result : Except NavigationError α} (deed : α → Deed)
      (hr : result.map (fun _ => ()) = .error e) : Deed.ofResult deed result = .failed e := by
    cases result with
    | ok a => cases hr
    | error e' =>
      cases hr
      rfl
  rw [react, run_eq] at h
  unfold deed
  cases hc : step.command <;> simp only [hc, dispatch, Reaction.map] at h <;> exact hfailed _ h

theorem deed_of_answer {request : Query.Request} {notices : List Event}
    (ha : Asks nav step request notices) :
    nav.deed step = .ofResult .ofOutcome
      ((nav.asking request).conclude step.host request.directory (step.respond request)).1 := by
  obtain ⟨symbol, hc, hs⟩ := ha.symbol
  rw [deed, hc]
  simp only [find_asks request ha.supported ha.resolved hs]

theorem deed_of_match {request : Query.Request} {notices : List Event} {output : Bytes}
    {record : Record} (ha : Asks nav step request notices) (ho : step.respond request = .ok output)
    (hl : Listing.records output = [record]) : nav.deed step = .found record := by
  rw [deed_of_answer ha, ho, conclude_singleton _ _ _ hl]
  rfl

theorem deed_of_matches {request : Query.Request} {notices : List Event} {output : Bytes}
    (ha : Asks nav step request notices) (ho : step.respond request = .ok output)
    (hl : 2 ≤ (Listing.records output).length) :
    nav.deed step = .listed (Listing.records output).length := by
  rw [deed_of_answer ha, ho, conclude_many _ _ _ hl]
  rfl

theorem deed_of_setDirectory {text directory : String} (hc : step.command = .setDirectory text)
    (hd : checkDirectory nav.locator step.world text = .ok directory) :
    nav.deed step = .directed directory := by
  have hset : (nav.setDirectory step.world text).result = .ok directory := by
    unfold setDirectory
    rw [hd]
  unfold deed
  rw [hc]
  exact congrArg (Deed.ofResult .directed) hset

-- ---------------------------------------------------------------------------
-- One step
-- ---------------------------------------------------------------------------

/-- Where a step sends the host, and what it does to the marks. -/
structure Accounted (nav : Navigator) (step : Step) : Prop where
  jumps : ∀ record, (nav.deed step).destination? = some record →
    ∃ directory text, nav.base? step = some directory ∧
      (nav.react step).events = (nav.located? step).toList.map announcement ++
        [.status text, .opened (Path.join directory record.file) record.line] ∧
      Marked nav.history step.host.mark text (nav.react step).navigator.history
  returns : ∀ mark, nav.deed step = .returned mark →
    nav.history.marks = mark :: (nav.react step).navigator.history.marks
  opens : (nav.deed step).destination? = none →
    ∀ event ∈ (nav.react step).events, event.isOpened = false
  stays : (nav.deed step).destination? = none → (∀ mark, nav.deed step ≠ .returned mark) →
    (nav.react step).navigator.history = nav.history
  capacity : (nav.react step).navigator.history.capacity = nav.history.capacity

theorem jump_marked (nav : Navigator) (host : Host) (directory : String) (record : Record) :
    ∃ text, (nav.jump host directory record).2 =
        [.status text, .opened (Path.join directory record.file) record.line] ∧
      Marked nav.history host.mark text (nav.jump host directory record).1.history := by
  simp only [jump]
  cases hp : nav.history.push host.mark with
  | ok later =>
    obtain ⟨hlt, hc, hm⟩ := History.push_eq_ok_iff.mp hp
    refine ⟨savedText host.mark, rfl, ?_⟩
    exact {
      told := by simp [hlt]
      grows := by simp [later.depth_eq, hm, nav.history.depth_eq ▸ hlt, nav.history.depth_eq]
      saved := fun _ => hm
      full := fun hge => absurd hlt (Nat.not_lt.mpr hge)
      capacity := hc }
  | error e =>
    obtain ⟨hge, rfl⟩ := History.push_eq_error_iff.mp hp
    refine ⟨_, rfl, ?_⟩
    exact {
      told := by simp [full_ne_savedText, hge]
      grows := by simpa using hge
      saved := fun hlt => absurd hlt (Nat.not_lt.mpr hge)
      full := fun _ => ⟨rfl, rfl⟩
      capacity := rfl }

/-- A step that jumps. It may have found the directory and dropped the list `before`. -/
theorem Accounted.of_jump (before : Navigator) (directory : String) (record : Record)
    (hd : (nav.deed step).destination? = some record) (hr : ∀ mark, nav.deed step ≠ .returned mark)
    (hb : nav.base? step = some directory) (hh : before.history = nav.history)
    (he : (nav.react step).events = (nav.located? step).toList.map announcement ++
      (before.jump step.host directory record).2)
    (hn : (nav.react step).navigator = (before.jump step.host directory record).1) :
    Accounted nav step := by
  obtain ⟨text, ht, hm⟩ := before.jump_marked step.host directory record
  rw [hh, ← hn] at hm
  rw [ht] at he
  exact {
    jumps := by
      rintro other ho
      obtain rfl := Option.some.inj (hd.symm.trans ho)
      exact ⟨directory, text, hb, he, hm⟩
    returns := fun mark h => absurd h (hr mark)
    opens := fun h => nomatch hd.symm.trans h
    stays := fun h => nomatch hd.symm.trans h
    capacity := hm.capacity }

theorem Accounted.of_still (hd : (nav.deed step).destination? = none)
    (hr : ∀ mark, nav.deed step ≠ .returned mark)
    (he : ∀ event ∈ (nav.react step).events, event.isOpened = false)
    (hn : (nav.react step).navigator.history = nav.history) : Accounted nav step where
  jumps _ h := nomatch hd.symm.trans h
  returns mark h := absurd h (hr mark)
  opens _ := he
  stays _ _ := hn
  capacity := congrArg History.capacity hn

theorem isOpened_notices (nav : Navigator) (step : Step) :
    ∀ event ∈ (nav.located? step).toList.map announcement, event.isOpened = false := by
  intro event he
  obtain ⟨directory, -, rfl⟩ := List.mem_map.mp he
  rfl

theorem accounted_of_failed {e : NavigationError} (h : (nav.react step).result = .error e) :
    Accounted nav step := by
  have hd := deed_of_error h
  have hleft := react_leaves h
  refine .of_still (by rw [hd]; rfl) (by simp [hd]) ?_ hleft.history
  rw [hleft.events]
  exact List.forall_mem_append.mpr
    ⟨isOpened_notices nav step, List.forall_mem_singleton.mpr rfl⟩

theorem accounted (nav : Navigator) (step : Step) : Accounted nav step := by
  obtain ⟨r, hx, hreact⟩ := nav.react_exit step
  cases hx with
  | unsupported | unlocated | blank | unanswered | unmatched | outOfRange | noMark | refused =>
    exact accounted_of_failed (congrArg Reaction.result hreact)
  | @jumped request notices output record ha ho hl =>
    obtain ⟨symbol, hc, -⟩ := ha.symbol
    have hd : nav.deed step = .found record := deed_of_match ha ho hl
    refine .of_jump (nav.asking request) request.directory record
      (by rw [hd]; rfl) (by simp [hd]) ?_ rfl ?_ ?_
    · simp [base?, hc, hreact, asking]
    · rw [hreact, ha.located.1]
      simp [report]
    · rw [hreact]
  | @listed request notices output ha ho hl =>
    have hd : nav.deed step = .listed (Listing.records output).length := deed_of_matches ha ho hl
    refine .of_still (by rw [hd]; rfl) (by simp [hd]) ?_ (by rw [hreact]; rfl)
    rw [hreact, ha.located.1]
    have hlast : ∀ event ∈ [Event.choices (Listing.records output)] ++ report (.ok ()),
        event.isOpened = false := by simp [report, Event.isOpened]
    rw [List.append_assoc]
    exact List.forall_mem_append.mpr ⟨isOpened_notices nav step, hlast⟩
  | @selected index choices record hc hn hr =>
    have hd : nav.deed step = .selected record := by
      simp [deed, hc, select, hn, hr, Deed.ofResult]
    have hl : nav.located? step = none := located?_eq_none (by simp [hc])
    refine .of_jump nav choices.directory record
      (by rw [hd]; rfl) (by simp [hd]) ?_ rfl ?_ ?_
    · simp [base?, hc, hn]
    · rw [hreact, hl]
      simp [report]
    · rw [hreact]
  | @popped mark history hc hp =>
    have hd : nav.deed step = .returned mark := by simp [deed, hc, popMark, hp, Deed.ofResult]
    obtain ⟨hm, hcap⟩ := History.pop_eq_ok_iff.mp hp
    exact {
      jumps := by simp [hd, Deed.destination?]
      returns := by
        rintro other ho
        cases hd.symm.trans ho
        rw [hreact]
        exact hm
      opens := by simp [hreact, report, Event.isOpened]
      stays := fun _ h => absurd hd (h mark)
      capacity := by rw [hreact]; exact hcap }
  | @accepted text directory hc hcheck =>
    have hd : nav.deed step = .directed directory := deed_of_setDirectory hc hcheck
    refine .of_still (by rw [hd]; rfl) (by simp [hd]) ?_ (by rw [hreact])
    simp [hreact, report, announcement, Event.isOpened]

end

-- ---------------------------------------------------------------------------
-- Counting
-- ---------------------------------------------------------------------------

/-- Whether a step jumps and its mark is on top from then on. -/
def saves (nav : Navigator) (step : Step) : Bool :=
  (nav.deed step).destination?.isSome &&
    (nav.react step).navigator.history.marks = step.host.mark :: nav.history.marks

def deeds (nav : Navigator) (steps : List Step) : List Deed :=
  (nav.met steps).map fun (nav, step) => nav.deed step

theorem deeds_concat (nav : Navigator) (steps : List Step) (step : Step) :
    nav.deeds (steps ++ [step]) = nav.deeds steps ++ [(nav.after steps).deed step] := by
  simp [deeds, met_concat]

section
variable {nav : Navigator} {step : Step}

theorem Accounted.countP_opened (h : Accounted nav step) :
    (nav.react step).events.countP Event.isOpened =
      [nav.deed step].countP (· matches .found _) +
        [nav.deed step].countP (· matches .selected _) := by
  have hjump {record : Record} (hd : (nav.deed step).destination? = some record) :
      (nav.react step).events.countP Event.isOpened = 1 := by
    obtain ⟨directory, text, -, he, -⟩ := h.jumps record hd
    have hn : ((nav.located? step).toList.map announcement).countP Event.isOpened = 0 :=
      List.countP_eq_zero.mpr fun event hm => by simp [isOpened_notices nav step event hm]
    rw [he, List.countP_append, hn]
    rfl
  have hstill (hd : (nav.deed step).destination? = none) :
      (nav.react step).events.countP Event.isOpened = 0 :=
    List.countP_eq_zero.mpr fun event hm => by simp [h.opens hd event hm]
  cases hd : nav.deed step with
  | found record | selected record => exact hjump (by rw [hd]; rfl)
  | listed | returned | directed | failed => exact hstill (by rw [hd]; rfl)

theorem Accounted.depth_step (h : Accounted nav step) :
    (nav.react step).navigator.history.depth + [nav.deed step].countP (· matches .returned _) =
      nav.history.depth + [(nav, step)].countP fun (nav, step) => nav.saves step := by
  have hjump {record : Record} (hd : (nav.deed step).destination? = some record) :
      (nav.react step).navigator.history.depth =
        nav.history.depth + [(nav, step)].countP fun (nav, step) => nav.saves step := by
    obtain ⟨directory, text, -, -, hm⟩ := h.jumps record hd
    by_cases hlt : nav.history.depth < nav.history.capacity
    · have hs : nav.saves step = true := by simp [saves, hd, hm.saved hlt]
      simp [hs, hm.grows.mpr hlt]
    · have hs : nav.saves step = false := by simp [saves, hm.full (Nat.not_lt.mp hlt)]
      simp [hs, hm.full (Nat.not_lt.mp hlt)]
  have hstill (hd : (nav.deed step).destination? = none) : nav.saves step = false := by
    simp [saves, hd]
  cases hd : nav.deed step with
  | found record | selected record => exact hjump (by rw [hd]; rfl)
  | returned mark =>
    have hm := h.returns mark hd
    have hs := hstill (by rw [hd]; rfl)
    simp [hs, History.depth_eq, hm]
  | listed | directed | failed =>
    have hs := hstill (by rw [hd]; rfl)
    have hh := h.stays (by rw [hd]; rfl) (by simp [hd])
    simp [hs, hh]

theorem Accounted.depth_le (h : Accounted nav step)
    (hle : nav.history.depth ≤ nav.history.capacity) :
    (nav.react step).navigator.history.depth ≤ (nav.react step).navigator.history.capacity := by
  have hstep := h.depth_step
  rw [h.capacity]
  cases hs : nav.saves step with
  | false =>
    simp only [List.countP_singleton, hs, Bool.false_eq_true, if_false] at hstep
    omega
  | true =>
    simp only [saves, Bool.and_eq_true, decide_eq_true_eq] at hs
    obtain ⟨hd, hmarks⟩ := hs
    obtain ⟨record, hd⟩ := Option.isSome_iff_exists.mp hd
    obtain ⟨directory, text, -, -, hm⟩ := h.jumps record hd
    -- The mark that was saved shows that there was room for it.
    have hgrows : (nav.react step).navigator.history.depth = nav.history.depth + 1 := by
      simp [History.depth_eq, hmarks]
    rw [hgrows]
    exact hm.grows.mp hgrows

end

theorem countP_opened_told (nav : Navigator) (steps : List Step) :
    (nav.told steps).countP Event.isOpened =
      (nav.deeds steps).countP (· matches .found _) +
        (nav.deeds steps).countP (· matches .selected _) := by
  induction steps using List.reverseRecOn with
  | nil => rfl
  | append_singleton steps step ih =>
    have hstep := (accounted (nav.after steps) step).countP_opened
    rw [told_concat, deeds_concat]
    simp only [List.countP_append, ih, hstep]
    omega

theorem depth_after (nav : Navigator) (steps : List Step) :
    (nav.after steps).history.depth + (nav.deeds steps).countP (· matches .returned _) =
      nav.history.depth + (nav.met steps).countP fun (nav, step) => nav.saves step := by
  induction steps using List.reverseRecOn with
  | nil => rfl
  | append_singleton steps step ih =>
    have hstep := (accounted (nav.after steps) step).depth_step
    rw [after_concat, deeds_concat, met_concat]
    simp only [List.countP_append] at ih hstep ⊢
    omega

theorem capacity_after (nav : Navigator) (steps : List Step) :
    (nav.after steps).history.capacity = nav.history.capacity := by
  induction steps using List.reverseRecOn with
  | nil => rfl
  | append_singleton steps step ih => rw [after_concat, (accounted _ step).capacity, ih]

theorem depth_le_after {nav : Navigator} (h : nav.history.depth ≤ nav.history.capacity)
    (steps : List Step) : (nav.after steps).history.depth ≤ (nav.after steps).history.capacity := by
  induction steps using List.reverseRecOn with
  | nil => exact h
  | append_singleton steps step ih =>
    rw [after_concat]
    exact (accounted _ step).depth_le ih

/-- The records that are opened are as many as the finds that jumped and the selections, and each
of these opens one. There are as many marks as were saved, less those that were returned to, and
never more than the capacity. -/
theorem jumps_accounted {start : Navigator} (hs : Initial start) (steps : List Step) :
    let deeds := start.deeds steps
    let history := (start.after steps).history
    (start.told steps).countP Event.isOpened =
        deeds.countP (· matches .found _) + deeds.countP (· matches .selected _) ∧
      (∀ entry ∈ start.met steps, Accounted entry.1 entry.2) ∧
      history.depth + deeds.countP (· matches .returned _) =
        (start.met steps).countP (fun (nav, step) => nav.saves step) ∧
      history.depth ≤ history.capacity ∧ history.capacity = start.history.capacity := by
  intro deeds history
  have hzero : start.history.depth = 0 := by rw [start.history.depth_eq, hs.untouched.2]; rfl
  refine ⟨countP_opened_told start steps, fun entry _ => accounted _ _, ?_, ?_,
    capacity_after start steps⟩
  · have h := depth_after start steps
    rw [hzero, Nat.zero_add] at h
    exact h
  · exact depth_le_after (hzero ▸ Nat.zero_le _) steps

end Navigator

namespace Sample

def narrow : Navigator := { fresh with history := { fresh.history with capacity := 1 } }

def crowded : List Step :=
  [step oneMatch (.find .symbol none), step twoMatches (.find .callers none), step [] (.select 1),
    step [] .popMark, step [] .popMark]

end Sample

namespace Navigator

theorem jumps_accounted_crowded :
    (Sample.narrow.told Sample.crowded).countP Event.isOpened = 2 ∧
      Sample.narrow.deeds Sample.crowded =
        [.found ⟨"a.c", "f", 3, "run();"⟩, .listed 2, .selected ⟨"b.c", "g", 5, "run(x);"⟩,
          .returned ⟨"main.c", 7⟩, .failed (.history .empty)] ∧
      (Sample.narrow.met Sample.crowded).countP (fun (nav, step) => nav.saves step) = 1 ∧
      (Sample.narrow.after Sample.crowded).history.depth = 0 := by
  have hdeeds : Sample.narrow.deeds Sample.crowded =
      [.found ⟨"a.c", "f", 3, "run();"⟩, .listed 2, .selected ⟨"b.c", "g", 5, "run(x);"⟩,
        .returned ⟨"main.c", 7⟩, .failed (.history .empty)] := by
    decide +kernel
  have hdepth : (Sample.narrow.after Sample.crowded).history.depth = 0 := by decide +kernel
  have hstart : Initial Sample.narrow := .fresh {} 1
  obtain ⟨hopened, -, hsaved, -⟩ := jumps_accounted hstart Sample.crowded
  rw [hdeeds] at hopened hsaved
  rw [hdepth] at hsaved
  exact ⟨hopened, hdeeds, hsaved.symm, hdepth⟩

end Navigator
end Xref
