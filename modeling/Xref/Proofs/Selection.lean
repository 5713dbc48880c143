import Xref.Proofs.CommandGrammar
import Xref.Proofs.Provenance
import Xref.Proofs.Rows
import Xref.Proofs.Session

/-!
# The list shown and the entry selected

The number in front of a row selects the record of that row, under the directory that the list came
from, until the next request is made. What is done in between has no part in it, and a number that
no row has opens nothing.
-/

namespace Xref

-- ---------------------------------------------------------------------------
-- The command
-- ---------------------------------------------------------------------------

namespace Command

variable {number : Nat} {between word : List Char}

theorem tight_select (hw : Numeral.Spells number word) :
    Text.Tight ("select".toList ++ between ++ word) := by
  have hname : Text.Word "select".toList := by decide
  exact hname.tight.append hw.isWord.tight between

theorem spaced_select (hb : Text.Blanks between) (hne : between ≠ [])
    (hw : Numeral.Spells number word) :
    Text.Spaced "select" (String.ofList ("select".toList ++ between ++ word))
      (some (String.ofList word)) := by
  have hword : Text.Tight (String.ofList word).toList := by simpa using hw.isWord.tight
  exact .followed (List.forall_mem_nil _) hb hne hword (List.forall_mem_nil _) (by simp)

end Command

namespace Terminal

open Text.Utf8 (decode)

/-- A text that selects an entry by its number. White space around its two words, and how much of it
stands between them, does not count. -/
inductive Selects (number : Nat) : String → Prop
  | intro {before between word after : List Char} (hb : Text.Blanks before)
      (hm : Text.Blanks between) (hne : between ≠ []) (hw : Numeral.Spells number word)
      (ha : Text.Blanks after) :
      Selects number (String.ofList (before ++ "select".toList ++ between ++ word ++ after))

theorem ofLine_selects {number : Nat} {text : String} (h : Selects number text) :
    Entry.ofLine text =
      if 0 < number ∧ number < Numeral.wordLimit then .command (.select (number - 1))
      else .unknown ⟨Text.trim text⟩ := by
  cases h with
  | @intro before between word after hb hm hne hw ha =>
    have htight : Text.Tight ("select".toList ++ between ++ word) := Command.tight_select hw
    have htrim : Text.trim
        (String.ofList (before ++ "select".toList ++ between ++ word ++ after)) =
        String.ofList ("select".toList ++ between ++ word) :=
      htight.trim_append hb ha (by simp)
    have hother (other : String) (h : other.toList.head? ≠ some 's') :
        String.ofList ("select".toList ++ between ++ word) ≠ other :=
      fun he => h (by rw [← he]; simp)
    have hq := not_or.mpr ⟨hother "quit" (by decide), hother "exit" (by decide)⟩
    have hparse := Command.parse_select (Command.spaced_select hm hne hw) (by simpa using hw)
    simp only [Entry.ofLine, htrim, htight.isEmpty, Bool.false_eq_true, if_false, if_neg hq,
      if_neg (hother "help" (by decide)), hparse, htight.trim_self]
    by_cases h : 0 < number ∧ number < Numeral.wordLimit
    · simp only [if_pos h]
    · simp only [if_neg h]

end Terminal

-- ---------------------------------------------------------------------------
-- The navigator
-- ---------------------------------------------------------------------------

namespace Navigator

variable {nav : Navigator} {step : Step}

theorem react_listed {request : Query.Request} {output : Bytes}
    (hq : (nav.react step).requests = [request]) (ho : step.respond request = .ok output)
    (hl : 2 ≤ (Listing.records output).length) :
    (∃ notices, (nav.react step).events = notices ++ [.choices (Listing.records output)]) ∧
      (nav.react step).navigator.choices = some ⟨request.directory, Listing.records output⟩ := by
  obtain ⟨r, hx, hreact⟩ := nav.react_exit step
  rw [hreact] at hq ⊢
  cases hx with
  | unanswered ha he =>
    obtain rfl := List.singleton_inj.mp hq
    rw [ho] at he
    cases he
  | unmatched ha ho' hl' | jumped ha ho' hl' =>
    obtain rfl := List.singleton_inj.mp hq
    obtain rfl := Except.ok.inj (ho.symm.trans ho')
    simp [hl'] at hl
  | @listed _ notices _ ha ho' =>
    obtain rfl := List.singleton_inj.mp hq
    obtain rfl := Except.ok.inj (ho.symm.trans ho')
    exact ⟨⟨notices, by simp [report]⟩, rfl⟩
  | _ => cases hq

variable {index : Nat}

theorem react_selected {choices : Choices} {record : Record} (hc : step.command = .select index)
    (hn : nav.choices = some choices) (hr : choices.records[index]? = some record) :
    nav.react step =
      { result := .ok ()
        events := (nav.jump step.host choices.directory record).2
        navigator := (nav.jump step.host choices.directory record).1 } := by
  simp [react, run_eq, dispatch, select, hc, hn, hr, Except.map, report]

def offered (nav : Navigator) : Nat := (nav.choices.map (·.records.length)).getD 0

theorem react_outOfRange (hc : step.command = .select index)
    (hn : nav.choices.bind (·.records[index]?) = none) :
    nav.react step =
      { result := .error (.selectionOutOfRange index nav.offered)
        events := [.status (NavigationError.selectionOutOfRange index nav.offered).message]
        navigator := nav } := by
  cases hl : nav.choices with
  | none => simp [react, run_eq, dispatch, select, hc, hl, Except.map, report, offered]
  | some choices =>
    have hr : choices.records[index]? = none := by simpa [hl] using hn
    simp [react, run_eq, dispatch, select, hc, hl, hr, Except.map, report, offered]

end Navigator

-- ---------------------------------------------------------------------------
-- The session
-- ---------------------------------------------------------------------------

namespace Terminal

open Text.Utf8 (decode)

/-- What a selection does that succeeds: the host is at the record and is told so, after the mark
that was saved or could not be, and the list stays. -/
structure Opens (before after : Session) (directory : String) (r : Record) : Prop where
  host : after.host = ⟨Path.join directory r.file, r.line.toNat, before.host.word⟩
  told : ∃ saved, after.transcript = before.transcript ++ render (.status saved) ++
    render (.opened (Path.join directory r.file) r.line) ++ promptText
  choices : after.navigator.choices = before.navigator.choices
  requests : after.requests = before.requests

def Refuses (before after : Session) : Prop :=
  ∃ text, after = before.print (render (.status text) ++ promptText)

namespace Session

variable (w : World) (answers : Answers)

theorem next_choices {s : Session} {line : Bytes} (h : s.asked w answers line = []) :
    (s.next w answers line).navigator.choices = s.navigator.choices := by
  unfold asked at h
  cases hc : command? line with
  | none =>
    obtain ⟨told, hn⟩ := next_of_no_command w answers hc s
    rw [hn]
    rfl
  | some command =>
    rw [hc] at h
    have hq : (s.reaction w answers command).requests = [] := h
    rw [next_of_command w answers hc]
    rw [reaction] at hq ⊢
    rw [Navigator.react_choices, hq]
    rfl

theorem foldl_next_choices {lines : List Bytes} {s : Session}
    (h : (lines.foldl (next w answers) s).requests = s.requests) :
    (lines.foldl (next w answers) s).navigator.choices = s.navigator.choices := by
  induction lines generalizing s with
  | nil => rfl
  | cons line rest ih =>
    obtain ⟨ha, hrest⟩ := quiet_cons w answers h
    rw [List.foldl_cons, ih hrest, next_choices w answers ha]

theorem next_listed {s : Session} {line : Bytes} {request : Query.Request} {output : Bytes}
    (hq : (s.next w answers line).requests = s.requests.push request)
    (ho : answers s.requests.size request = .ok output)
    (hn : 2 ≤ (Listing.records output).length) :
    Continues line ∧
      (∃ told, (s.next w answers line).transcript =
        s.transcript ++ told ++ render (.choices (Listing.records output)) ++ promptText) ∧
      (s.next w answers line).navigator.choices =
        some ⟨request.directory, Listing.records output⟩ := by
  have ha : s.asked w answers line = [request] := by
    rw [next_requests] at hq
    simpa using congrArg Array.toList hq
  unfold asked at ha
  cases hc : command? line with
  | none =>
    rw [hc] at ha
    cases ha
  | some command =>
    rw [hc] at ha
    have hask : (s.navigator.react (s.step w answers command)).requests = [request] := ha
    obtain ⟨⟨notices, he⟩, hchoices⟩ := Navigator.react_listed hask ho hn
    rw [next_of_command w answers hc]
    obtain ⟨prompted, hp⟩ := s.prepare_transcript command
    refine ⟨continues_of_command? hc, ⟨prompted ++ String.join (notices.map render), ?_⟩, hchoices⟩
    rw [reaction, he, hp]
    simp [String.append_assoc]

variable {s : Session} {line : Bytes}

theorem opens_of_selected {index : Nat} {choices : Choices} {r : Record}
    (hc : command? line = some (.select index)) (hn : s.navigator.choices = some choices)
    (hr : choices.records[index]? = some r) :
    Opens s (s.next w answers line) choices.directory r := by
  have hreact : s.reaction w answers (.select index) =
      { result := .ok ()
        events := (s.navigator.jump s.host choices.directory r).2
        navigator := (s.navigator.jump s.host choices.directory r).1 } :=
    Navigator.react_selected rfl hn hr
  obtain ⟨saved, hj⟩ := s.navigator.jump_events s.host choices.directory r
  rw [next_of_command w answers hc, hreact, hj]
  exact {
    host := rfl
    told := ⟨saved, by simp [prepare, String.append_assoc]⟩
    choices := s.navigator.jump_choices _ _ _
    requests := Array.appendList_nil }

theorem next_outOfRange {index : Nat} (hc : command? line = some (.select index))
    (hn : s.navigator.choices.bind (·.records[index]?) = none) :
    s.next w answers line =
      s.print
        (render (.status (NavigationError.selectionOutOfRange index s.navigator.offered).message) ++
          promptText) := by
  have hselect : (s.step w answers (.select index)).command = .select index := rfl
  have hreact := Navigator.react_outOfRange hselect hn
  rw [next_of_command w answers hc, reaction, hreact]
  simp [print, prepare, Host.followAll, Host.follow, String.append_assoc]

theorem refuses_of_outOfRange {index : Nat} (hc : command? line = some (.select index))
    (hn : s.navigator.choices.bind (·.records[index]?) = none) :
    Refuses s (s.next w answers line) :=
  ⟨_, next_outOfRange w answers hc hn⟩

theorem refuses_of_unknown {text : String} {e : UnknownCommand}
    (hd : decode (chomp line) = .ok text) (he : Entry.ofLine text = .unknown e) :
    Refuses s (s.next w answers line) := by
  refine ⟨e.message, ?_⟩
  simp only [next, hd, he, enter, print, String.append_assoc]

/-- Where a list waits, a number that it has opens the record there, and no other number does
anything. -/
theorem next_selects {choices : Choices} (hn : s.navigator.choices = some choices) {number : Nat}
    {text : String} (hs : Selects number text) (hd : decode (chomp line) = .ok text) :
    (1 ≤ number → number ≤ choices.records.length → number < Numeral.wordLimit →
      ∃ r, choices.records[number - 1]? = some r ∧
        Opens s (s.next w answers line) choices.directory r) ∧
      (number = 0 ∨ choices.records.length < number ∨ Numeral.wordLimit ≤ number →
        Refuses s (s.next w answers line)) := by
  have hentry := ofLine_selects hs
  constructor
  · intro hpos hle hword
    rw [if_pos ⟨hpos, hword⟩] at hentry
    obtain ⟨r, hr⟩ : ∃ r, choices.records[number - 1]? = some r :=
      ⟨_, List.getElem?_eq_getElem (by omega)⟩
    exact ⟨r, hr, opens_of_selected w answers (command?_eq_some.mpr ⟨text, hd, hentry⟩) hn hr⟩
  · intro hout
    split at hentry
    · next h =>
      have hr : choices.records[number - 1]? = none := List.getElem?_eq_none (by omega)
      exact refuses_of_outOfRange w answers (command?_eq_some.mpr ⟨text, hd, hentry⟩)
        (by simp [hn, hr])
    · exact refuses_of_unknown w answers hd hentry

/-- A line whose request has two matches or more shows each record on a line of its own, numbered
from one. As long as no request is made after that, selecting a number, however it is written, opens
the record on the line with that number, under the directory of the request. Zero and the numbers
past the last line open nothing, and neither does a number that is no 64-bit word. -/
theorem select_opens_row {request : Query.Request} {output : Bytes}
    (hq : (s.next w answers line).requests = s.requests.push request)
    (ho : answers s.requests.size request = .ok output)
    (hn : 2 ≤ (Listing.records output).length) :
    let records := Listing.records output
    let listed := s.next w answers line
    let shown := render (.choices records)
    (∃ told, listed.transcript = s.transcript ++ told ++ shown ++ promptText) ∧
      ((Text.lines shown).1.length = records.length ∧ (Text.lines shown).2 = "" ∧
        ∀ i r, records[i]? = some r →
          (Text.lines shown).1[i]? =
            some (Text.alignRight 3 (toString (i + 1)) ++ "  " ++ r.row)) ∧
      ∀ more : List Bytes, (∀ earlier ∈ more, Continues earlier) →
        let reached := more.foldl (next w answers) listed
        reached.requests = listed.requests →
        ∀ number text last, Selects number text → decode (chomp last) = .ok text →
          let after := reached.next w answers last
          (∀ rest, follow w answers s (line :: (more ++ last :: rest)) =
            follow w answers after rest) ∧
          (1 ≤ number → number ≤ records.length → number < Numeral.wordLimit →
            ∃ r, records[number - 1]? = some r ∧ Opens reached after request.directory r) ∧
          (number = 0 ∨ records.length < number ∨ Numeral.wordLimit ≤ number →
            Refuses reached after) := by
  intro records listed shown
  obtain ⟨hcontinues, htold, hchoices⟩ := next_listed w answers hq ho hn
  have hshown : Text.lines shown = _ :=
    lines_render_choices fun r => Listing.presentable_of_mem_records
  refine ⟨htold, ?_, ?_⟩
  · rw [hshown]
    refine ⟨by simp, rfl, fun i r hr => ?_⟩
    simp [hr, numberedRow]
  · intro more hmore reached hquiet number text last hs hd after
    -- Without a request since, the list is the one that was shown.
    have hkept : reached.navigator.choices = some ⟨request.directory, records⟩ :=
      (foldl_next_choices w answers hquiet).trans hchoices
    refine ⟨fun rest => ?_, next_selects w answers hkept hs hd⟩
    have hlast : Continues last := by
      refine continues_of_ofLine hd ?_
      rw [ofLine_selects hs]
      split <;> simp
    rw [follow_cons_continues w answers hcontinues, follow_append w answers hmore,
      follow_cons_continues w answers hlast]

end Session
end Terminal

namespace Sample

open Text.Utf8 (encode)

def twice : Terminal.Answers := fun _ _ => .ok twoMatches

def meanwhile : List Bytes :=
  [encode "set-database-directory /q\n", encode "change-text x\n", encode "select 9\n",
    encode "\r\n"]

end Sample

namespace Terminal.Session

open Text.Utf8 (encode)

theorem select_opens_row_after_setDirectory :
    ∃ (shown : String) (reached after : Session),
      Text.lines shown =
        (["  1  " ++ Record.row ⟨"a.c", "f", 3, "run();"⟩,
          "  2  " ++ Record.row ⟨"b.c", "g", 5, "run(x);"⟩], "") ∧
      reached.navigator.directory = some "/q" ∧
      (∀ rest, follow Sample.world Sample.twice Sample.session
          (encode "find-callers run\n" :: (Sample.meanwhile ++ encode " select\t+002 \n" :: rest)) =
        follow Sample.world Sample.twice after rest) ∧
      Opens reached after "/p" ⟨"b.c", "g", 5, "run(x);"⟩ := by
  have hq : (Sample.session.next Sample.world Sample.twice (encode "find-callers run\n")).requests =
      Sample.session.requests.push ⟨.callers, "run", "/p"⟩ := by
    decide +kernel
  have ho : Sample.twice 0 ⟨.callers, "run", "/p"⟩ = .ok Sample.twoMatches := rfl
  have hrecords : Listing.records Sample.twoMatches =
      [⟨"a.c", "f", 3, "run();"⟩, ⟨"b.c", "g", 5, "run(x);"⟩] := by
    decide +kernel
  have hc : ∀ earlier ∈ Sample.meanwhile, Continues earlier := by
    simp only [Sample.meanwhile, List.forall_mem_cons]
    exact ⟨⟨"set-database-directory /q", by decide +kernel⟩, ⟨"change-text x", by decide +kernel⟩,
      ⟨"select 9", by decide +kernel⟩, ⟨"", by decide +kernel⟩, List.forall_mem_nil _⟩
  have hs : Selects 2
      (String.ofList ([' '] ++ "select".toList ++ ['\t'] ++ "+002".toList ++ [' '])) :=
    .intro (by decide) (by decide) (by decide) ⟨2, .inr (by decide)⟩ (by decide)
  obtain ⟨-, -, hselect⟩ :=
    select_opens_row Sample.world Sample.twice hq ho (by decide +kernel)
  obtain ⟨hrest, hopens, -⟩ := hselect Sample.meanwhile hc (by decide +kernel) 2 _
    (encode " select\t+002 \n") hs (by decide +kernel)
  obtain ⟨r, hr, hopen⟩ := hopens (by decide) (by decide +kernel) (by decide +kernel)
  rw [hrecords] at hr
  obtain rfl : ⟨"b.c", "g", 5, "run(x);"⟩ = r := Option.some.inj hr
  exact ⟨render (.choices (Listing.records Sample.twoMatches)), _, _, by decide +kernel,
    by decide +kernel, hrest, hopen⟩

end Terminal.Session
end Xref
