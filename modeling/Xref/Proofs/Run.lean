import Mathlib.Data.List.Induction
import Xref.Navigator

/-!
# Runs of a navigator

A run is a list of steps. Every step brings its own world, host and answers, so that nothing is
assumed of what happens between two commands. `exit` lists the ways in which a command ends; what
holds after every run is read off them, case by case.
-/

namespace Xref

structure Step where
  world : World
  host : Host
  respond : Responder
  command : Command

structure Exchange where
  request : Query.Request
  answer : Except Query.Error Bytes
  deriving DecidableEq

def Step.exchange (step : Step) (request : Query.Request) : Exchange :=
  ⟨request, step.respond request⟩

@[simp] theorem Reaction.map_mk (f : α → β) (result : Except NavigationError α)
    (events : List Event) (requests : List Query.Request) (navigator : Navigator) :
    (Reaction.mk result events requests navigator).map f =
      ⟨result.map f, events, requests, navigator⟩ := rfl

theorem toOption_eq_some {result : Except ε α} {a : α} :
    result.toOption = some a ↔ result = .ok a := by
  cases result <;> simp [Except.toOption]

namespace Navigator

def react (nav : Navigator) (step : Step) : Reaction Unit :=
  nav.run step.world step.host step.respond step.command

def after (nav : Navigator) (steps : List Step) : Navigator :=
  steps.foldl (fun nav step => (nav.react step).navigator) nav

def exchanges (nav : Navigator) : List Step → List Exchange
  | [] => []
  | step :: rest =>
    (nav.react step).requests.map step.exchange ++ (nav.react step).navigator.exchanges rest

/-- A navigator before its first command. It may have been seeded with a directory. -/
inductive Initial : Navigator → Prop
  | fresh (locator : Locator) (capacity : Nat) :
      Initial { locator, history := { capacity } }
  | seeded {nav seeded : Navigator} {w : World} {text : String} :
      Initial nav → nav.seed w text = .ok seeded → Initial seeded

theorem Initial.untouched {nav : Navigator} (h : Initial nav) :
    nav.choices = none ∧ nav.history.marks = [] := by
  induction h with
  | fresh locator capacity => exact ⟨rfl, rfl⟩
  | seeded _ hs ih =>
    unfold seed at hs
    split at hs
    · cases hs
      exact ih
    · cases hs

@[simp] theorem after_nil (nav : Navigator) : nav.after [] = nav := rfl

@[simp] theorem after_cons (nav : Navigator) (step : Step) (rest : List Step) :
    nav.after (step :: rest) = (nav.react step).navigator.after rest := rfl

theorem after_append (nav : Navigator) (first second : List Step) :
    nav.after (first ++ second) = (nav.after first).after second :=
  List.foldl_append

@[simp] theorem after_concat (nav : Navigator) (steps : List Step) (step : Step) :
    nav.after (steps ++ [step]) = ((nav.after steps).react step).navigator := by
  rw [after_append]
  rfl

theorem exchanges_append (nav : Navigator) (first second : List Step) :
    nav.exchanges (first ++ second) =
      nav.exchanges first ++ (nav.after first).exchanges second := by
  induction first generalizing nav with
  | nil => rfl
  | cons step rest ih => simp [exchanges, ih]

theorem exchanges_concat (nav : Navigator) (steps : List Step) (step : Step) :
    nav.exchanges (steps ++ [step]) =
      nav.exchanges steps ++ ((nav.after steps).react step).requests.map step.exchange := by
  simp [exchanges_append, exchanges]

def met (nav : Navigator) : List Step → List (Navigator × Step)
  | [] => []
  | step :: rest => (nav, step) :: (nav.react step).navigator.met rest

theorem met_concat (nav : Navigator) (steps : List Step) (step : Step) :
    nav.met (steps ++ [step]) = nav.met steps ++ [(nav.after steps, step)] := by
  induction steps generalizing nav with
  | nil => rfl
  | cons first rest ih => simp [met, ih]

def told (nav : Navigator) (steps : List Step) : List Event :=
  (nav.met steps).flatMap fun (nav, step) => (nav.react step).events

theorem told_concat (nav : Navigator) (steps : List Step) (step : Step) :
    nav.told (steps ++ [step]) = nav.told steps ++ ((nav.after steps).react step).events := by
  simp [told, met_concat]

theorem met_keeps {P : Navigator → Prop} {nav : Navigator} {steps : List Step} (h : P nav)
    (hstep : ∀ nav, ∀ step ∈ steps, P nav → P (nav.react step).navigator) :
    ∀ entry ∈ nav.met steps, P entry.1 ∧ entry.2 ∈ steps := by
  induction steps generalizing nav with
  | nil => exact List.forall_mem_nil _
  | cons step rest ih =>
    obtain ⟨hfirst, hrest⟩ : P (nav.react step).navigator ∧
        ∀ nav, ∀ step ∈ rest, P nav → P (nav.react step).navigator :=
      ⟨hstep nav step List.mem_cons_self h,
        fun nav later hm => hstep nav later (List.mem_cons_of_mem _ hm)⟩
    refine List.forall_mem_cons.mpr ⟨⟨h, List.mem_cons_self⟩, fun entry hm => ?_⟩
    obtain ⟨hp, hs⟩ := ih hfirst hrest entry hm
    exact ⟨hp, List.mem_cons_of_mem _ hs⟩

-- ---------------------------------------------------------------------------
-- Reports
-- ---------------------------------------------------------------------------

def report : Except NavigationError Unit → List Event
  | .ok () => []
  | .error e => [.status e.message]

theorem run_eq (nav : Navigator) (w : World) (host : Host) (respond : Responder)
    (command : Command) :
    nav.run w host respond command =
      { nav.dispatch w host respond command with
        events := (nav.dispatch w host respond command).events ++
          report (nav.dispatch w host respond command).result } := by
  unfold run
  cases h : nav.dispatch w host respond command with
  | mk result events requests navigator => cases result <;> simp [report]

-- ---------------------------------------------------------------------------
-- Parts of a command
-- ---------------------------------------------------------------------------

theorem resolve_eq_some {nav : Navigator} {w : World} {directory : String} {notices : List Event} :
    nav.resolve w = some (directory, notices) ↔
      (nav.directory = some directory ∧ notices = []) ∨
        (nav.directory = none ∧ notices = [announcement directory] ∧
          ∃ start, w.workingPath = .ok start ∧ nav.locator.locate? w start = some directory) := by
  unfold resolve
  cases hd : nav.directory with
  | some cached => simp [eq_comm]
  | none =>
    simp only [Option.bind_eq_some_iff, toOption_eq_some, Option.map_eq_some_iff, Prod.mk.injEq,
      reduceCtorEq, false_and, false_or, true_and]
    constructor
    · rintro ⟨start, hw, _, hl, rfl, rfl⟩
      exact ⟨rfl, start, hw, hl⟩
    · rintro ⟨rfl, start, hw, hl⟩
      exact ⟨start, hw, directory, hl, rfl, rfl⟩

@[simp] theorem jump_locator (nav : Navigator) (host : Host) (directory : String)
    (record : Record) : (nav.jump host directory record).1.locator = nav.locator := by
  simp only [jump]
  split <;> rfl

@[simp] theorem jump_directory (nav : Navigator) (host : Host) (directory : String)
    (record : Record) : (nav.jump host directory record).1.directory = nav.directory := by
  simp only [jump]
  split <;> rfl

@[simp] theorem jump_choices (nav : Navigator) (host : Host) (directory : String)
    (record : Record) : (nav.jump host directory record).1.choices = nav.choices := by
  simp only [jump]
  split <;> rfl

theorem jump_events (nav : Navigator) (host : Host) (directory : String) (record : Record) :
    ∃ text, (nav.jump host directory record).2 =
      [.status text, .opened (Path.join directory record.file) record.line] := by
  simp only [jump]
  split <;> exact ⟨_, rfl⟩

def refusal (e : Query.Error) : NavigationError :=
  if e = .noOutput then .noMatches else .query e

section
variable (nav : Navigator) (host : Host) (directory : String)

theorem conclude_error (e : Query.Error) :
    nav.conclude host directory (.error e) = (.error (refusal e), [], nav) := by
  cases e <;> rfl

variable {output : Bytes}

theorem conclude_nil (hl : Listing.records output = []) :
    nav.conclude host directory (.ok output) = (.error .noMatches, [], nav) := by
  simp [conclude, hl]

theorem conclude_singleton {record : Record} (hl : Listing.records output = [record]) :
    nav.conclude host directory (.ok output) =
      (.ok (.jumped record), (nav.jump host directory record).2,
        (nav.jump host directory record).1) := by
  simp [conclude, hl]

theorem conclude_many (hl : 2 ≤ (Listing.records output).length) :
    nav.conclude host directory (.ok output) =
      (.ok (.choices (Listing.records output).length), [.choices (Listing.records output)],
        { nav with choices := some ⟨directory, Listing.records output⟩ }) := by
  match hr : Listing.records output with
  | [] | [_] => simp [hr] at hl
  | first :: second :: rest => simp [conclude, hr]

end

-- ---------------------------------------------------------------------------
-- Ways to end
-- ---------------------------------------------------------------------------

/-- A find gets as far as its request. -/
structure Asks (nav : Navigator) (step : Step) (request : Query.Request) (notices : List Event) :
    Prop where
  symbol : ∃ symbol, step.command = .find request.kind symbol ∧
    chooseSymbol symbol step.host.word = some request.symbol
  supported : request.kind.supported = true
  resolved : nav.resolve step.world = some (request.directory, notices)

/-- The navigator while a request is answered. -/
def asking (nav : Navigator) (request : Query.Request) : Navigator :=
  { nav with directory := some request.directory, choices := none }

/-- The ways in which a command ends, each with what led there. The reaction is complete but for
the report of a failure. -/
inductive Exit (nav : Navigator) (step : Step) : Reaction Unit → Prop
  | unsupported {kind symbol} (hc : step.command = .find kind symbol)
      (hk : kind.supported = false) :
      Exit nav step { result := .error (.unsupported kind), navigator := nav }
  | unlocated {kind symbol} (hc : step.command = .find kind symbol)
      (hk : kind.supported = true) (hr : nav.resolve step.world = none) :
      Exit nav step { result := .error .databaseNotFound, navigator := nav }
  | blank {kind symbol directory notices} (hc : step.command = .find kind symbol)
      (hk : kind.supported = true) (hr : nav.resolve step.world = some (directory, notices))
      (hs : chooseSymbol symbol step.host.word = none) :
      Exit nav step
        { result := .error .emptySymbol
          events := notices
          navigator := { nav with directory := some directory } }
  | unanswered {request notices e} (ha : Asks nav step request notices)
      (he : step.respond request = .error e) :
      Exit nav step
        { result := .error (refusal e)
          events := notices
          requests := [request]
          navigator := nav.asking request }
  | unmatched {request notices output} (ha : Asks nav step request notices)
      (ho : step.respond request = .ok output) (hl : Listing.records output = []) :
      Exit nav step
        { result := .error .noMatches
          events := notices
          requests := [request]
          navigator := nav.asking request }
  | jumped {request notices output record} (ha : Asks nav step request notices)
      (ho : step.respond request = .ok output) (hl : Listing.records output = [record]) :
      Exit nav step
        { result := .ok ()
          events := notices ++
            ((nav.asking request).jump step.host request.directory record).2
          requests := [request]
          navigator := ((nav.asking request).jump step.host request.directory record).1 }
  | listed {request notices output} (ha : Asks nav step request notices)
      (ho : step.respond request = .ok output) (hl : 2 ≤ (Listing.records output).length) :
      Exit nav step
        { result := .ok ()
          events := notices ++ [.choices (Listing.records output)]
          requests := [request]
          navigator :=
            { nav.asking request with
              choices := some ⟨request.directory, Listing.records output⟩ } }
  | outOfRange {index} (hc : step.command = .select index)
      (hn : nav.choices.bind (·.records[index]?) = none) :
      Exit nav step
        { result :=
            .error (.selectionOutOfRange index ((nav.choices.map (·.records.length)).getD 0))
          navigator := nav }
  | selected {index choices record} (hc : step.command = .select index)
      (hn : nav.choices = some choices) (hr : choices.records[index]? = some record) :
      Exit nav step
        { result := .ok ()
          events := (nav.jump step.host choices.directory record).2
          navigator := (nav.jump step.host choices.directory record).1 }
  | noMark {e} (hc : step.command = .popMark) (hp : nav.history.pop = .error e) :
      Exit nav step { result := .error (.history e), navigator := nav }
  | popped {mark history} (hc : step.command = .popMark)
      (hp : nav.history.pop = .ok (mark, history)) :
      Exit nav step
        { result := .ok ()
          events :=
            [.status ("popped offset " ++ toString mark.offset ++ " in " ++ mark.buffer),
              .restored mark]
          navigator := { nav with history } }
  | refused {text e} (hc : step.command = .setDirectory text)
      (hd : checkDirectory nav.locator step.world text = .error e) :
      Exit nav step { result := .error (.directory e), navigator := nav }
  | accepted {text directory} (hc : step.command = .setDirectory text)
      (hd : checkDirectory nav.locator step.world text = .ok directory) :
      Exit nav step
        { result := .ok ()
          events := [announcement directory]
          navigator := { nav with directory := some directory } }

theorem find_asks {nav : Navigator} {step : Step} {notices : List Event}
    {symbol : Option String} (request : Query.Request) (hk : request.kind.supported = true)
    (hr : nav.resolve step.world = some (request.directory, notices))
    (hs : chooseSymbol symbol step.host.word = some request.symbol) :
    nav.find step.world step.host step.respond request.kind symbol =
      let (result, events, nav) :=
        (nav.asking request).conclude step.host request.directory (step.respond request)
      { result, events := notices ++ events, requests := [request], navigator := nav } := by
  simp [find, hk, hr, hs, asking]

theorem exit_find {nav : Navigator} {step : Step} {kind : Query.Kind} {symbol : Option String}
    (hc : step.command = .find kind symbol) :
    Exit nav step
      ((nav.find step.world step.host step.respond kind symbol).map fun _ => ()) := by
  cases hk : kind.supported with
  | false =>
    have h : Exit nav step _ := .unsupported hc hk
    simpa [find, hk, Except.map] using h
  | true =>
    cases hr : nav.resolve step.world with
    | none =>
      have h : Exit nav step _ := .unlocated hc hk hr
      simpa [find, hk, hr, Except.map] using h
    | some found =>
      obtain ⟨directory, notices⟩ := found
      cases hs : chooseSymbol symbol step.host.word with
      | none =>
        have h : Exit nav step _ := .blank hc hk hr hs
        simpa [find, hk, hr, hs, Except.map] using h
      | some chosen =>
        have hf := find_asks ⟨kind, chosen, directory⟩ hk hr hs
        have ha : Asks nav step ⟨kind, chosen, directory⟩ notices := ⟨⟨symbol, hc, hs⟩, hk, hr⟩
        rw [hf]
        cases ho : step.respond ⟨kind, chosen, directory⟩ with
        | error e =>
          rw [conclude_error]
          simpa [Except.map] using Exit.unanswered ha ho
        | ok output =>
          match hl : Listing.records output with
          | [] =>
            rw [conclude_nil _ _ _ hl]
            simpa [Except.map] using Exit.unmatched ha ho hl
          | [record] =>
            rw [conclude_singleton _ _ _ hl]
            exact .jumped ha ho hl
          | first :: second :: rest =>
            have hn : 2 ≤ (Listing.records output).length := by simp [hl]
            rw [conclude_many _ _ _ hn]
            exact .listed ha ho hn

theorem exit_select {nav : Navigator} {step : Step} {index : Nat}
    (hc : step.command = .select index) :
    Exit nav step ((nav.select step.host index).map fun _ => ()) := by
  cases hn : nav.choices with
  | none =>
    have h : Exit nav step _ := .outOfRange hc (by simp [hn])
    simpa [select, hn, Except.map] using h
  | some choices =>
    cases hr : choices.records[index]? with
    | none =>
      have h : Exit nav step _ := .outOfRange hc (by simp [hn, hr])
      simpa [select, hn, hr, Except.map] using h
    | some record =>
      have h : Exit nav step _ := .selected hc hn hr
      simpa [select, hn, hr, Except.map] using h

theorem exit_popMark {nav : Navigator} {step : Step} (hc : step.command = .popMark) :
    Exit nav step (nav.popMark.map fun _ => ()) := by
  cases hp : nav.history.pop with
  | error e =>
    have h : Exit nav step _ := .noMark hc hp
    simpa [popMark, hp, Except.map] using h
  | ok popped =>
    obtain ⟨mark, history⟩ := popped
    have h : Exit nav step _ := .popped hc hp
    simpa [popMark, hp, Except.map] using h

theorem exit_setDirectory {nav : Navigator} {step : Step} {text : String}
    (hc : step.command = .setDirectory text) :
    Exit nav step ((nav.setDirectory step.world text).map fun _ => ()) := by
  unfold setDirectory
  match hd : checkDirectory nav.locator step.world text with
  | .error e =>
    have h : Exit nav step _ := .refused hc hd
    simpa [Except.map] using h
  | .ok directory =>
    have h : Exit nav step _ := .accepted hc hd
    simpa [Except.map] using h

theorem exit (nav : Navigator) (step : Step) :
    Exit nav step (nav.dispatch step.world step.host step.respond step.command) := by
  cases hc : step.command with
  | find kind symbol => exact exit_find hc
  | select index => exact exit_select hc
  | popMark => exact exit_popMark hc
  | setDirectory text => exact exit_setDirectory hc

/-- Each step ends in one of the ways, and tells the host if it failed. -/
theorem react_exit (nav : Navigator) (step : Step) :
    ∃ r, Exit nav step r ∧
      nav.react step = { r with events := r.events ++ report r.result } := by
  refine ⟨_, exit nav step, ?_⟩
  rw [react, run_eq]

theorem react_requests_eq_nil {nav : Navigator} {step : Step}
    (hc : ∀ kind symbol, step.command ≠ .find kind symbol) : (nav.react step).requests = [] := by
  obtain ⟨r, hx, hreact⟩ := nav.react_exit step
  rw [hreact]
  cases hx with
  | unanswered ha | unmatched ha | jumped ha | listed ha =>
    obtain ⟨symbol, hf, -⟩ := ha.symbol
    exact absurd hf (hc _ _)
  | _ => rfl

theorem asks_of_mem_requests {nav : Navigator} {step : Step} {request : Query.Request}
    (h : request ∈ (nav.react step).requests) :
    (∃ notices, Asks nav step request notices) ∧ (nav.react step).requests = [request] ∧
      (nav.react step).navigator.directory = some request.directory := by
  obtain ⟨r, hx, hreact⟩ := nav.react_exit step
  rw [hreact] at h ⊢
  cases hx with
  | unanswered ha | unmatched ha | listed ha =>
    obtain rfl := List.mem_singleton.mp h
    exact ⟨⟨_, ha⟩, rfl, rfl⟩
  | jumped ha =>
    obtain rfl := List.mem_singleton.mp h
    exact ⟨⟨_, ha⟩, rfl, by simp [asking]⟩
  | _ => nomatch h

@[simp] theorem react_locator (nav : Navigator) (step : Step) :
    (nav.react step).navigator.locator = nav.locator := by
  obtain ⟨r, hx, hreact⟩ := nav.react_exit step
  rw [hreact]
  cases hx with
  | jumped => simp [asking]
  | selected => simp
  | _ => rfl

@[simp] theorem after_locator (nav : Navigator) (steps : List Step) :
    (nav.after steps).locator = nav.locator := by
  induction steps generalizing nav with
  | nil => rfl
  | cons step rest ih => rw [after_cons, ih, react_locator]

end Navigator

-- ---------------------------------------------------------------------------
-- A small project
-- ---------------------------------------------------------------------------

namespace Sample

def world : World where
  files :=
    (((FileSystem.empty.put ["p"] (some .directory)).put ["q"] (some .directory)).put
      ["cscope.out", "p"] (some (.file [] false))).put
        ["cscope.out", "q"] (some (.file [] false))
  workingDirectory := ⟨["p"], 0⟩
  home := "/home"
  searchPath := []
  program := ⟨[], [], .ok (.exited 0)⟩

def step (output : Bytes) (command : Command) : Step :=
  ⟨world, ⟨"main.c", 7, some "run"⟩, fun _ => .ok output, command⟩

def fresh : Navigator := { locator := {}, history := { capacity := 4, depth := 0 } }

def oneMatch : Bytes := Text.Utf8.encode "a.c f 3 run();\n"
def twoMatches : Bytes := Text.Utf8.encode "a.c f 3 run();\nb.c g 5 run(x);\n"

end Sample
end Xref
