import Xref.Proofs.CommandGrammar
import Xref.Proofs.OneLine
import Xref.Proofs.Session

/-!
# What makes a status span lines

As long as the names that a session meets are on one line, a status has a newline only if it tells
that a request failed and quotes a text from outside: the diagnostics of the query program, or a
system error that has a text of its own. Such a text is told as it is, so it does make the status
span lines.
-/

namespace Xref

def Event.Tidy : Event → Prop
  | .status text => OneLine text
  | .opened path _ => OneLine path
  | .restored mark => OneLine mark.buffer
  | .choices _ => True

/-- The home directory and the working directory are named on one line. -/
structure World.Tidy (w : World) : Prop where
  home : OneLine w.home
  working : ∀ text, w.workingPath.toOption = some text → OneLine text

/-- The program that failed is named on one line. What else the error says is no name. -/
def Query.Error.Tidy (e : Query.Error) : Prop :=
  ∀ program, e.program? = some program → OneLine program

structure Step.Tidy (step : Step) : Prop where
  world : step.world.Tidy
  buffer : OneLine step.host.buffer
  directory : ∀ text, step.command = .setDirectory text → OneLine text
  programs : ∀ request e, step.respond request = .error e → e.Tidy

structure Navigator.Tidy (nav : Navigator) : Prop where
  directory : ∀ directory, nav.directory = some directory → OneLine directory
  choices : ∀ choices, nav.choices = some choices →
    OneLine choices.directory ∧ ∀ record ∈ choices.records, OneLine record.file
  marks : ∀ mark ∈ nav.history.marks, OneLine mark.buffer

theorem oneLine_of_mem_records {output : Bytes} {record : Record}
    (h : record ∈ Listing.records output) : OneLine record.file :=
  (Listing.presentable_of_mem_records h).file.2

theorem oneLine_announcement {directory : String} (h : OneLine directory) :
    (Navigator.announcement directory).Tidy :=
  OneLine.append (.fixed (by decide)) h

-- ---------------------------------------------------------------------------
-- Parts of a step
-- ---------------------------------------------------------------------------

namespace Navigator

section
variable {nav : Navigator} {step : Step}

theorem tidy_resolve {directory : String} {notices : List Event} (hn : nav.Tidy) (hs : step.Tidy)
    (hr : nav.resolve step.world = some (directory, notices)) :
    OneLine directory ∧ ∀ event ∈ notices, event.Tidy := by
  rcases resolve_eq_some.mp hr with ⟨hd, rfl⟩ | ⟨-, rfl, start, hw, hl⟩
  · exact ⟨hn.directory _ hd, List.forall_mem_nil _⟩
  · have hstart : OneLine start := hs.world.working start (toOption_eq_some.mpr hw)
    have hdir : OneLine directory := Locator.oneLine_of_locate? hs.world.working hstart hl
    exact ⟨hdir, List.forall_mem_singleton.mpr (oneLine_announcement hdir)⟩

theorem tidy_asking {request : Query.Request} (hn : nav.Tidy) (hd : OneLine request.directory) :
    (nav.asking request).Tidy where
  directory := by
    rintro _ ⟨⟩
    exact hd
  choices := by
    rintro _ ⟨⟩
  marks := hn.marks

theorem tidy_jump {host : Host} {directory : String} {record : Record} (hn : nav.Tidy)
    (hb : OneLine host.buffer) (hd : OneLine directory) (hf : OneLine record.file) :
    (nav.jump host directory record).1.Tidy ∧
      ∀ event ∈ (nav.jump host directory record).2, event.Tidy := by
  have hopened : (Event.opened (Path.join directory record.file) record.line).Tidy :=
    Path.oneLine_join hd hf
  simp only [jump]
  cases hp : nav.history.push host.mark with
  | ok later =>
    have hsaved : OneLine ("saved offset " ++ toString host.mark.offset ++ " in " ++
        host.mark.buffer) :=
      .append (.append (.append (.fixed (by decide)) (.nat _)) (.fixed (by decide))) hb
    refine ⟨⟨hn.directory, hn.choices, ?_⟩,
      List.forall_mem_cons.mpr ⟨hsaved, List.forall_mem_singleton.mpr hopened⟩⟩
    rw [(History.push_eq_ok_iff.mp hp).2.2]
    exact List.forall_mem_cons.mpr ⟨hb, hn.marks⟩
  | error e =>
    exact ⟨hn, List.forall_mem_cons.mpr
      ⟨e.oneLine_message, List.forall_mem_singleton.mpr hopened⟩⟩

-- ---------------------------------------------------------------------------
-- One step
-- ---------------------------------------------------------------------------

/-- What is there after a command, before a failure is reported. The message of the failure is on
one line, unless a request failed with what it quotes. -/
structure Ends (step : Step) (r : Reaction Unit) : Prop where
  navigator : r.navigator.Tidy
  events : ∀ event ∈ r.events, event.Tidy
  message : ∀ e, r.result = .error e → OneLine e.message ∨
    ∃ request ∈ r.requests, ∃ error, step.respond request = .error error ∧
      ¬OneLine error.quoted ∧ e = .query error

theorem ends_of_error {e : NavigationError} {events : List Event}
    {requests : List Query.Request} (hn : nav.Tidy) (he : ∀ event ∈ events, event.Tidy)
    (hm : OneLine e.message) : Ends step ⟨.error e, events, requests, nav⟩ where
  navigator := hn
  events := he
  message := by
    rintro _ ⟨⟩
    exact .inl hm

theorem ends_of_ok {events : List Event} {requests : List Query.Request} (hn : nav.Tidy)
    (he : ∀ event ∈ events, event.Tidy) : Ends step ⟨.ok (), events, requests, nav⟩ where
  navigator := hn
  events := he
  message := by
    rintro _ ⟨⟩

theorem exit_ends (hn : nav.Tidy) (hs : step.Tidy) {r : Reaction Unit} (hx : Exit nav step r) :
    Ends step r := by
  cases hx with
  | @unsupported kind =>
    exact ends_of_error hn (List.forall_mem_nil _)
      (.append kind.oneLine_description (.fixed (by decide)))
  | unlocated => exact ends_of_error hn (List.forall_mem_nil _) (.fixed (by decide))
  | blank hc hk hr hb =>
    obtain ⟨hd, he⟩ := tidy_resolve hn hs hr
    refine ends_of_error ⟨?_, hn.choices, hn.marks⟩ he (.fixed (by decide))
    rintro _ ⟨⟩
    exact hd
  | @unanswered request notices e ha he =>
    obtain ⟨hd, hnotices⟩ := tidy_resolve hn hs ha.resolved
    refine ⟨tidy_asking hn hd, hnotices, ?_⟩
    rintro _ ⟨⟩
    unfold refusal
    split
    · exact .inl (.fixed (by decide))
    · -- Nothing is cut out of what is quoted, so its newlines are those of the message.
      by_cases hq : OneLine e.quoted
      · have hm := (Query.Error.oneLine_message_iff (hs.programs request e he)).mpr hq
        exact .inl (.append (.fixed (by decide)) hm)
      · exact .inr ⟨request, List.mem_singleton_self _, e, he, hq, rfl⟩
  | unmatched ha ho hl =>
    obtain ⟨hd, hnotices⟩ := tidy_resolve hn hs ha.resolved
    exact ends_of_error (tidy_asking hn hd) hnotices (.fixed (by decide))
  | @jumped request notices output record ha ho hl =>
    obtain ⟨hd, hnotices⟩ := tidy_resolve hn hs ha.resolved
    have hf : OneLine record.file := oneLine_of_mem_records (by rw [hl]; exact List.mem_cons_self)
    obtain ⟨hnav, he⟩ := tidy_jump (tidy_asking hn hd) hs.buffer hd hf
    exact ends_of_ok hnav (List.forall_mem_append.mpr ⟨hnotices, he⟩)
  | @listed request notices output ha ho hl =>
    obtain ⟨hd, hnotices⟩ := tidy_resolve hn hs ha.resolved
    have hlist : (Event.choices (Listing.records output)).Tidy := trivial
    refine ends_of_ok ⟨(tidy_asking hn hd).directory, ?_, hn.marks⟩
      (List.forall_mem_append.mpr ⟨hnotices, List.forall_mem_singleton.mpr hlist⟩)
    rintro _ ⟨⟩
    exact ⟨hd, fun record => oneLine_of_mem_records⟩
  | @outOfRange index =>
    refine ends_of_error hn (List.forall_mem_nil _) ?_
    exact .append (.append (.append (.append (.fixed (by decide)) (.nat index))
      (.fixed (by decide))) (.nat _)) (.fixed (by decide))
  | selected hc hl hr =>
    obtain ⟨hd, hf⟩ := hn.choices _ hl
    obtain ⟨hnav, he⟩ := tidy_jump hn hs.buffer hd (hf _ (List.mem_of_getElem? hr))
    exact ends_of_ok hnav he
  | @noMark e => exact ends_of_error hn (List.forall_mem_nil _) e.oneLine_message
  | @popped mark history hc hp =>
    have hm : nav.history.marks = mark :: history.marks := (History.pop_eq_ok_iff.mp hp).1
    obtain ⟨hmark, hmarks⟩ := List.forall_mem_cons.mp (hm ▸ hn.marks)
    have hback : OneLine ("popped offset " ++ toString mark.offset ++ " in " ++ mark.buffer) :=
      .append (.append (.append (.fixed (by decide)) (.nat _)) (.fixed (by decide))) hmark
    exact ends_of_ok ⟨hn.directory, hn.choices, hmarks⟩
      (List.forall_mem_cons.mpr ⟨hback, List.forall_mem_singleton.mpr hmark⟩)
  | @refused text e hc hd =>
    have he : OneLine e.message :=
      (oneLine_of_checkDirectory hs.world.home (hs.directory text hc)).1 e hd
    exact ends_of_error hn (List.forall_mem_nil _) he
  | @accepted text directory hc hd =>
    have hdir : OneLine directory :=
      (oneLine_of_checkDirectory hs.world.home (hs.directory text hc)).2 directory hd
    refine ends_of_ok ⟨?_, hn.choices, hn.marks⟩
      (List.forall_mem_singleton.mpr (oneLine_announcement hdir))
    rintro _ ⟨⟩
    exact hdir

/-- A step keeps the names on one line, and an event that is not is the report of a request. -/
theorem react_tidy (hn : nav.Tidy) (hs : step.Tidy) :
    (nav.react step).navigator.Tidy ∧
      ∀ event ∈ (nav.react step).events, event.Tidy ∨
        ∃ request ∈ (nav.react step).requests, ∃ e, step.respond request = .error e ∧
          ¬OneLine e.quoted ∧ event = .status (NavigationError.query e).message := by
  obtain ⟨r, hx, hreact⟩ := nav.react_exit step
  have hends := exit_ends hn hs hx
  rw [hreact]
  refine ⟨hends.navigator, fun event hm => ?_⟩
  obtain hm | hm := List.mem_append.mp hm
  · exact .inl (hends.events event hm)
  cases hr : r.result with
  | ok u =>
    rw [hr] at hm
    cases hm
  | error e =>
    rw [hr] at hm
    obtain rfl := List.mem_singleton.mp hm
    obtain hone | ⟨request, hq, error, he, hquoted, rfl⟩ := hends.message e hr
    · exact .inl hone
    · exact .inr ⟨request, hq, error, he, hquoted, rfl⟩

theorem reported_of_unanswered {request : Query.Request} {e : Query.Error}
    (hq : request ∈ (nav.react step).requests) (he : step.respond request = .error e)
    (hne : e ≠ .noOutput) :
    Event.status (NavigationError.query e).message ∈ (nav.react step).events := by
  obtain ⟨r, hx, hreact⟩ := nav.react_exit step
  rw [hreact] at hq ⊢
  cases hx with
  | unanswered ha hasked =>
    obtain rfl := List.mem_singleton.mp hq
    obtain rfl := Except.error.inj (hasked.symm.trans he)
    refine List.mem_append_right _ ?_
    rw [refusal, if_neg hne]
    exact List.mem_singleton_self _
  | unmatched ha ho | jumped ha ho | listed ha ho =>
    obtain rfl := List.mem_singleton.mp hq
    cases ho.symm.trans he
  | _ => cases hq

theorem status_spans_iff (hn : nav.Tidy) (hs : step.Tidy) (text : String) :
    (.status text ∈ (nav.react step).events ∧ ¬OneLine text) ↔
      ∃ request ∈ (nav.react step).requests, ∃ e, step.respond request = .error e ∧
        ¬OneLine e.quoted ∧ text = (NavigationError.query e).message := by
  constructor
  · rintro ⟨hm, hspans⟩
    obtain htidy | ⟨request, hq, e, he, hquoted, ht⟩ := (react_tidy hn hs).2 _ hm
    · exact absurd htidy hspans
    · exact ⟨request, hq, e, he, hquoted, Event.status.inj ht⟩
  · rintro ⟨request, hq, e, he, hquoted, rfl⟩
    have hne : e ≠ .noOutput := by
      rintro rfl
      exact hquoted (.fixed (by decide))
    refine ⟨reported_of_unanswered hq he hne, fun hone => hquoted ?_⟩
    exact (Query.Error.oneLine_message_iff (hs.programs request e he)).mp (oneLine_append.mp hone).2

end

theorem Initial.tidy {nav : Navigator} (h : Initial nav)
    (hd : ∀ directory, nav.directory = some directory → OneLine directory) : nav.Tidy where
  directory := hd
  choices := by simp [h.untouched.1]
  marks := by simp [h.untouched.2]

end Navigator

-- ---------------------------------------------------------------------------
-- Lines
-- ---------------------------------------------------------------------------

theorem Command.oneLine_of_parse {line path : String} (hl : OneLine line)
    (h : parse line = .ok (.setDirectory path)) : OneLine path := by
  obtain ⟨argument, ht, hs⟩ := parse_eq_ok_iff.mp h
  obtain rfl := ht
  exact hl.of_subset hs.subset

namespace Terminal

open Text.Utf8 (decode)

theorem exists_body_of_mem_lines {input line : Bytes} (h : line ∈ lines input) :
    ∃ body, Listing.newline ∉ body ∧ (line = body ∨ line = body ++ [Listing.newline]) := by
  induction input generalizing line with
  | nil => cases h
  | cons b rest ih =>
    by_cases hb : b = Listing.newline
    · rw [hb, lines_cons_newline] at h
      obtain rfl | h := List.mem_cons.mp h
      · exact ⟨[], List.not_mem_nil, .inr rfl⟩
      · exact ih h
    · cases rest with
      | nil =>
        obtain rfl : line = [b] := by simpa [lines, hb] using h
        exact ⟨[b], by simpa [eq_comm] using hb, .inl rfl⟩
      | cons c rest =>
        obtain ⟨first, later, hl⟩ := exists_lines_cons c rest
        rw [lines_cons hb hl] at h
        obtain rfl | h := List.mem_cons.mp h
        · obtain ⟨body, hn, hbody⟩ := ih (by rw [hl]; exact List.mem_cons_self)
          refine ⟨b :: body, by simp [hn, eq_comm, hb], ?_⟩
          obtain rfl | rfl := hbody
          · exact .inl rfl
          · exact .inr rfl
        · exact ih (by rw [hl]; exact List.mem_cons_of_mem _ h)

theorem newline_not_mem_chomp {input line : Bytes} (h : line ∈ lines input) :
    Listing.newline ∉ chomp line := by
  obtain ⟨body, hn, hline⟩ := exists_body_of_mem_lines h
  have hrest {rest : Bytes} (hr : rest ⊆ body) : Listing.newline ∉ rest := fun hm => hn (hr hm)
  unfold chomp
  split
  · next last rest hs =>
    obtain rfl | rfl := hline
    · rw [if_neg]
      · exact hn
      · rintro rfl
        exact hn (List.mem_reverse.mp (by rw [hs]; exact List.mem_cons_self))
    · rw [List.reverse_append] at hs
      obtain ⟨rfl, rfl⟩ := List.cons.inj hs
      rw [if_pos rfl]
      split
      · exact hrest fun b hb => List.mem_reverse.mp (List.mem_of_mem_tail (List.mem_reverse.mp hb))
      · exact hrest fun b hb => by simpa using hb
  · exact List.not_mem_nil

theorem oneLine_of_decode {bytes : Bytes} {text : String} (h : decode bytes = .ok text)
    (hn : Listing.newline ∉ bytes) : OneLine text := by
  have hl : text = Text.Utf8.lossy bytes := by
    simp only [decode] at h
    split at h <;> cases h
    rfl
  rw [hl]
  exact fun hm => hn (Listing.plain_newline.mem_of_mem_lossy hm)

theorem oneLine_of_unknown {text : String} {e : UnknownCommand} (ht : OneLine text)
    (h : Entry.ofLine text = .unknown e) : OneLine e.message := by
  have hp : Command.parse (Text.trim text) = .error e := by
    simp only [Entry.ofLine] at h
    repeat' split at h
    all_goals cases h
    assumption
  have hl : e.line = Text.trim (Text.trim text) := by
    simp only [Command.parse] at hp
    split at hp
    · cases hp
    · exact congrArg UnknownCommand.line (Except.error.inj hp).symm
  have hwords : OneLine "unknown command: " := .fixed (by decide)
  unfold UnknownCommand.message
  rw [hl]
  exact hwords.append ht.trim.trim

-- ---------------------------------------------------------------------------
-- Sessions
-- ---------------------------------------------------------------------------

namespace Session

structure Tidy (s : Session) : Prop where
  navigator : s.navigator.Tidy
  buffer : OneLine s.host.buffer

variable (w : World) (answers : Answers)

def told (s : Session) (line : Bytes) : List Event :=
  match decode (chomp line) with
  | .error _ => []
  | .ok text =>
    match Entry.ofLine text with
    | .command command => (s.reaction w answers command).events
    | .unknown e => [.status e.message]
    | .blank | .quit | .help => []

def aside (s : Session) (line : Bytes) : String :=
  match decode (chomp line) with
  | .error _ => ""
  | .ok text =>
    match Entry.ofLine text with
    | .help => Terminal.help
    | .command (.find kind none) => kind.prompt s.host.word ++ s.host.word.getD "" ++ "\n"
    | _ => ""

theorem next_transcript {line : Bytes} (h : Continues line) (s : Session) :
    (s.next w answers line).transcript =
      s.transcript ++ s.aside line ++ String.join ((s.told w answers line).map render) ++
        promptText := by
  obtain ⟨text, hd, -⟩ := h
  simp only [next, told, aside, hd]
  cases Entry.ofLine text with
  | blank | quit | help | unknown => simp [enter, print]
  | command command =>
    cases command with
    | find kind symbol =>
      cases symbol <;> simp [enter, run, prepare, print, reaction, Navigator.react, step]
    | select | popMark | setDirectory =>
      simp [enter, run, prepare, print, reaction, Navigator.react, step]

section
variable {w : World} {answers : Answers} {s : Session} {input line : Bytes}

theorem tidy_step {text : String} {command : Command} (hw : w.Tidy)
    (hp : ∀ n request e, answers n request = .error e → e.Tidy) (hs : s.Tidy)
    (ht : OneLine text) (hc : Entry.ofLine text = .command command) :
    (s.step w answers command).Tidy where
  world := hw
  buffer := by
    have hb : (s.prepare command).host.buffer = s.host.buffer := by
      cases command with
      | find kind symbol => cases symbol <;> rfl
      | select | popMark | setDirectory => rfl
    exact hb ▸ hs.buffer
  directory := by
    rintro path rfl
    exact Command.oneLine_of_parse ht.trim (ofLine_eq_command hc)
  programs := hp s.requests.size

theorem oneLine_followAll {host : Host} {events : List Event} (hb : OneLine host.buffer)
    (he : ∀ event ∈ events, event.Tidy ∨ ∃ text, event = .status text) :
    OneLine (host.followAll events).buffer := by
  induction events generalizing host with
  | nil => exact hb
  | cons event rest ih =>
    obtain ⟨hevent, hrest⟩ := List.forall_mem_cons.mp he
    refine ih ?_ hrest
    cases event with
    | status | choices => exact hb
    | opened | restored =>
      obtain htidy | ⟨text, ht⟩ := hevent
      · exact htidy
      · cases ht

theorem tidy_next (hw : w.Tidy) (hp : ∀ n request e, answers n request = .error e → e.Tidy)
    (hs : s.Tidy) (hl : line ∈ lines input) : (s.next w answers line).Tidy := by
  cases hc : command? line with
  | none =>
    obtain ⟨told, hn⟩ := next_of_no_command w answers hc s
    rw [hn]
    exact ⟨hs.navigator, hs.buffer⟩
  | some command =>
    obtain ⟨text, hd, he⟩ := command?_eq_some.mp hc
    have hstep : (s.step w answers command).Tidy :=
      tidy_step hw hp hs (oneLine_of_decode hd (newline_not_mem_chomp hl)) he
    obtain ⟨hnav, hevents⟩ := Navigator.react_tidy hs.navigator hstep
    rw [next_of_command w answers hc]
    refine ⟨hnav, oneLine_followAll hstep.buffer fun event hm => ?_⟩
    obtain htidy | ⟨_, _, _, _, _, ht⟩ := hevents event hm
    · exact .inl htidy
    · exact .inr ⟨_, ht⟩

theorem tidy_foldl_next (hw : w.Tidy)
    (hp : ∀ n request e, answers n request = .error e → e.Tidy) (hs : s.Tidy)
    {before : List Bytes} (hl : before ⊆ lines input) :
    (before.foldl (next w answers) s).Tidy := by
  induction before generalizing s with
  | nil => exact hs
  | cons line rest ih =>
    obtain ⟨hline, hrest⟩ := List.cons_subset.mp hl
    exact ih (tidy_next hw hp hs hline) hrest

theorem told_of_command {command : Command} (h : command? line = some command) :
    s.told w answers line = (s.reaction w answers command).events := by
  obtain ⟨text, hd, he⟩ := command?_eq_some.mp h
  simp only [told, hd, he]

theorem tidy_of_no_command (h : command? line = none) (hl : line ∈ lines input) :
    ∀ event ∈ s.told w answers line, event.Tidy := by
  unfold told
  cases hd : decode (chomp line) with
  | error fault => exact List.forall_mem_nil _
  | ok text =>
    dsimp only
    cases he : Entry.ofLine text with
    | blank | quit | help => exact List.forall_mem_nil _
    | unknown e =>
      have hone : OneLine text := oneLine_of_decode hd (newline_not_mem_chomp hl)
      exact List.forall_mem_singleton.mpr (oneLine_of_unknown hone he)
    | command command =>
      rw [command?_eq_some.mpr ⟨text, hd, he⟩] at h
      cases h

theorem told_spans_iff (hw : w.Tidy)
    (hp : ∀ n request e, answers n request = .error e → e.Tidy) (hs : s.Tidy)
    (hl : line ∈ lines input) (text : String) :
    (.status text ∈ s.told w answers line ∧ ¬OneLine text) ↔
      ∃ request ∈ s.asked w answers line, ∃ e, answers s.requests.size request = .error e ∧
        ¬OneLine e.quoted ∧ text = (NavigationError.query e).message := by
  unfold asked
  cases hc : command? line with
  | none =>
    constructor
    · rintro ⟨hm, hspans⟩
      exact absurd (tidy_of_no_command hc hl _ hm) hspans
    · rintro ⟨_, hm, -⟩
      cases hm
  | some command =>
    obtain ⟨entered, hd, he⟩ := command?_eq_some.mp hc
    have hone : OneLine entered := oneLine_of_decode hd (newline_not_mem_chomp hl)
    rw [told_of_command hc]
    exact Navigator.status_spans_iff hs.navigator (tidy_step hw hp hs hone he) text

end
end Session
end Terminal

/-- The statuses that go with some requests are on one line as long as the failed ones quote no more
than that. Only the report of one that does can have more. -/
structure StatusLines (events : List Event) (requests : List Query.Request)
    (respond : Responder) : Prop where
  one_line_iff : (∀ text, .status text ∈ events → OneLine text) ↔
    ∀ request ∈ requests, ∀ e, respond request = .error e → OneLine e.quoted
  report : ∀ text, .status text ∈ events → ¬OneLine text →
    ∃ request ∈ requests, ∃ e, respond request = .error e ∧ ¬OneLine e.quoted ∧
      text = (NavigationError.query e).message

theorem StatusLines.of_spans_iff {events : List Event} {requests : List Query.Request}
    {respond : Responder}
    (h : ∀ text, (.status text ∈ events ∧ ¬OneLine text) ↔
      ∃ request ∈ requests, ∃ e, respond request = .error e ∧ ¬OneLine e.quoted ∧
        text = (NavigationError.query e).message) :
    StatusLines events requests respond where
  one_line_iff := by
    constructor
    · intro hone request hq e he
      by_contra hquoted
      obtain ⟨hm, hspans⟩ := (h _).mpr ⟨request, hq, e, he, hquoted, rfl⟩
      exact hspans (hone _ hm)
    · intro hquoted text hm
      by_contra hspans
      obtain ⟨request, hq, e, he, hn, -⟩ := (h text).mp ⟨hm, hspans⟩
      exact hn (hquoted request hq e he)
  report := fun text hm hspans => (h text).mp ⟨hm, hspans⟩

open Terminal in
/-- With names on one line, the statuses of a command are on one line exactly if no failed request
quotes more than that, whether a navigator is driven by commands or by the lines of a session. What
a line adds to the transcript is the prompt of a find or the help, the events, and the next
prompt. -/
theorem statuses_one_line_iff {start : Navigator} (hi : Navigator.Initial start)
    (hd : ∀ directory, start.directory = some directory → OneLine directory) :
    (∀ steps : List Step, (∀ step ∈ steps, step.Tidy) → ∀ entry ∈ start.met steps,
      StatusLines (entry.1.react entry.2).events (entry.1.react entry.2).requests
        entry.2.respond) ∧
      ∀ (w : World) (answers : Answers) (host : Host) (input : Bytes), w.Tidy →
        (∀ n request e, answers n request = .error e → e.Tidy) → OneLine host.buffer →
        ∀ before line rest, lines input = before ++ line :: rest →
          (∀ earlier ∈ before, Continues earlier) →
          let s : Session := { navigator := start, host }
          let reached := before.foldl (Session.next w answers) (s.print promptText)
          let told := reached.told w answers line
          s.start w answers input = Session.follow w answers reached (line :: rest) ∧
            (Continues line → (reached.next w answers line).transcript =
              reached.transcript ++ reached.aside line ++ String.join (told.map render) ++
                promptText) ∧
            StatusLines told (reached.asked w answers line) (answers reached.requests.size) := by
  constructor
  · intro steps hs entry hm
    have hmet : ∀ entry ∈ start.met steps, entry.1.Tidy ∧ entry.2 ∈ steps :=
      Navigator.met_keeps (hi.tidy hd) fun nav step hstep hn =>
        (Navigator.react_tidy hn (hs step hstep)).1
    obtain ⟨hn, hmem⟩ := hmet entry hm
    exact StatusLines.of_spans_iff (Navigator.status_spans_iff hn (hs entry.2 hmem))
  · intro w answers host input hw hp hb before line rest hl hc s reached told
    have hs : (s.print promptText).Tidy := ⟨hi.tidy hd, hb⟩
    have hbefore : before ⊆ lines input := by
      rw [hl]
      exact List.subset_append_left _ _
    have hline : line ∈ lines input := by
      rw [hl]
      exact List.mem_append_right _ List.mem_cons_self
    refine ⟨?_, fun h => Session.next_transcript w answers h reached, ?_⟩
    · rw [Session.start, hl]
      exact Session.follow_append w answers hc _ _
    · have hreached : reached.Tidy := Session.tidy_foldl_next hw hp hs hbefore
      exact StatusLines.of_spans_iff (Session.told_spans_iff hw hp hreached hline)

namespace Sample

def broken (diagnostics : String) : Query.Error := .failed "cscope" (.exited 1) diagnostics

def failing (diagnostics : String) : Step :=
  { step [] (.find .callers none) with respond := fun _ => .error (broken diagnostics) }

theorem tidy_world : world.Tidy where
  home := .fixed (by decide)
  working := by
    have hw : world.workingPath.toOption = some "/p" := by decide +kernel
    intro text ht
    obtain rfl := Option.some.inj (hw.symm.trans ht)
    exact .fixed (by decide)

theorem tidy_broken (diagnostics : String) : (broken diagnostics).Tidy := by
  rintro _ ⟨⟩
  exact .fixed (by decide)

theorem tidy_failing (diagnostics : String) : (failing diagnostics).Tidy where
  world := tidy_world
  buffer := .fixed (by decide)
  directory := by rintro _ ⟨⟩
  programs := by
    rintro _ _ ⟨⟩
    exact tidy_broken diagnostics

end Sample

open Terminal in
theorem statuses_one_line_iff_of_diagnostics :
    (∀ text, .status text ∈ (Sample.fresh.react (Sample.failing "no file")).events →
        OneLine text) ∧
      ¬∀ text, .status text ∈ (Sample.session.print promptText).told Sample.world
        (fun _ _ => .error (Sample.broken "no file\nsee -b"))
        (Text.Utf8.encode "find-callers run") → OneLine text := by
  have hdir (directory : String) (h : Sample.fresh.directory = some directory) :
      OneLine directory := nomatch h
  obtain ⟨hrun, hsession⟩ := statuses_one_line_iff (.fresh {} 4) hdir
  have hone := hrun [Sample.failing "no file"]
    (List.forall_mem_singleton.mpr (Sample.tidy_failing "no file"))
    (Sample.fresh, Sample.failing "no file") List.mem_cons_self
  have hanswers (n : Nat) (request : Query.Request) (e : Query.Error)
      (h : (fun _ _ => .error (Sample.broken "no file\nsee -b") : Answers) n request = .error e) :
      e.Tidy := by
    cases h
    exact Sample.tidy_broken _
  have hline : lines (Text.Utf8.encode "find-callers run") =
      [] ++ [Text.Utf8.encode "find-callers run"] := by
    decide +kernel
  obtain ⟨-, -, htwo⟩ := hsession Sample.world _ scratch _ Sample.tidy_world hanswers
    (.fixed (by decide)) [] _ [] hline (List.forall_mem_nil _)
  refine ⟨hone.one_line_iff.mpr ?_, fun h => ?_⟩
  · rintro _ _ _ ⟨⟩
    exact .fixed (by decide)
  · have hquoted : OneLine "no file\nsee -b" :=
      htwo.one_line_iff.mp h ⟨.callers, "run", "/p"⟩ (by decide +kernel) _ rfl
    exact absurd hquoted (by decide +kernel)

/-- Names are on one line, and yet a status is not. -/
theorem diagnostics_span_lines :
    Navigator.Initial Sample.fresh ∧ Sample.fresh.directory = none ∧
      (Sample.failing "no file\nsee -b").Tidy ∧
      (Sample.fresh.react (Sample.failing "no file\nsee -b")).events =
        [.status "symbol database at: /p",
          .status
            "cscope query failed: 'cscope' exited with exit status: 1: no file\nsee -b"] ∧
      ¬OneLine "cscope query failed: 'cscope' exited with exit status: 1: no file\nsee -b" :=
  ⟨.fresh {} 4, rfl, Sample.tidy_failing _, by decide +kernel, by decide +kernel⟩

end Xref
