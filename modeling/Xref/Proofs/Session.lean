import Xref.Proofs.Run
import Xref.Terminal

/-!
# Sessions line by line

A session is a fold over its lines: what the first lines leave is all that the next ones meet.
Input may therefore be handed over in parts, as long as a part ends where a line does. A line that
quits, or that cannot be read, is the last to have a part in the session.
-/

namespace Xref.Terminal

open Text.Utf8 (decode Fault)

-- ---------------------------------------------------------------------------
-- Lines
-- ---------------------------------------------------------------------------

theorem lines_cons_newline (rest : Bytes) :
    lines (Listing.newline :: rest) = [Listing.newline] :: lines rest := by
  simp [lines]

theorem lines_cons {b : UInt8} (hb : b ≠ Listing.newline) {rest line : Bytes} {later : List Bytes}
    (h : lines rest = line :: later) : lines (b :: rest) = (b :: line) :: later := by
  unfold lines at h ⊢
  rw [List.foldr_cons, if_neg hb, h]

theorem exists_lines_cons (b : UInt8) (rest : Bytes) :
    ∃ line later, lines (b :: rest) = line :: later := by
  by_cases hb : b = Listing.newline
  · exact ⟨_, _, hb ▸ lines_cons_newline rest⟩
  · cases h : lines rest with
    | nil =>
      unfold lines at h
      exact ⟨[b], [], by simp [lines, hb, h]⟩
    | cons line later => exact ⟨_, _, lines_cons hb h⟩

def Ended (input : Bytes) : Prop := input = [] ∨ input.getLast? = some Listing.newline

instance (input : Bytes) : Decidable (Ended input) := inferInstanceAs (Decidable (_ ∨ _))

/-- A newline at the end keeps what follows out of the last line. -/
theorem lines_append {first : Bytes} (hf : Ended first) (second : Bytes) :
    lines (first ++ second) = lines first ++ lines second := by
  induction first with
  | nil => rfl
  | cons b rest ih =>
    have hlast : (b :: rest).getLast? = some Listing.newline := hf.resolve_left (by simp)
    by_cases hb : b = Listing.newline
    · have hrest : Ended rest := by
        cases rest with
        | nil => exact .inl rfl
        | cons c rest => exact .inr (by simpa using hlast)
      rw [List.cons_append, hb, lines_cons_newline, lines_cons_newline, ih hrest, List.cons_append]
    · cases rest with
      | nil => exact absurd (by simpa using hlast) hb
      | cons c rest =>
        have hrest : Ended (c :: rest) := .inr (by simpa using hlast)
        obtain ⟨line, later, hl⟩ := exists_lines_cons c rest
        have happ : lines ((c :: rest) ++ second) = line :: (later ++ lines second) := by
          rw [ih hrest, hl, List.cons_append]
        rw [lines_cons hb hl, List.cons_append]
        exact lines_cons hb happ

def Continues (line : Bytes) : Prop :=
  ∃ text, decode (chomp line) = .ok text ∧ Text.trim text ≠ "quit" ∧ Text.trim text ≠ "exit"

def Quits (line : Bytes) : Prop :=
  ∃ text, decode (chomp line) = .ok text ∧ (Text.trim text = "quit" ∨ Text.trim text = "exit")

theorem ofLine_eq_quit_iff (text : String) :
    Entry.ofLine text = .quit ↔ Text.trim text = "quit" ∨ Text.trim text = "exit" := by
  simp only [Entry.ofLine]
  split
  · next h =>
    rw [String.isEmpty_iff.mp h]
    simp
  split
  · next h => simp [h]
  · next h =>
    simp only [h, iff_false]
    split
    · simp
    · split <;> simp

theorem ofLine_eq_command {text : String} {command : Command}
    (h : Entry.ofLine text = .command command) :
    Command.parse (Text.trim text) = .ok command := by
  simp only [Entry.ofLine] at h
  split at h
  · cases h
  split at h
  · cases h
  split at h
  · cases h
  split at h
  · next hp =>
    cases h
    exact hp
  · cases h

theorem continues_or_quits_or_unreadable (line : Bytes) :
    Continues line ∨ Quits line ∨ ∃ fault, decode (chomp line) = .error fault := by
  cases hd : decode (chomp line) with
  | error fault => exact .inr (.inr ⟨fault, rfl⟩)
  | ok text =>
    by_cases hq : Text.trim text = "quit" ∨ Text.trim text = "exit"
    · exact .inr (.inl ⟨text, hd, hq⟩)
    · exact .inl ⟨text, hd, not_or.mp hq⟩

theorem continues_of_ofLine {line : Bytes} {text : String} (hd : decode (chomp line) = .ok text)
    (h : Entry.ofLine text ≠ .quit) : Continues line :=
  ⟨text, hd, not_or.mp ((ofLine_eq_quit_iff text).not.mp h)⟩

def command? (line : Bytes) : Option Command :=
  match decode (chomp line) with
  | .error _ => none
  | .ok text =>
    match Entry.ofLine text with
    | .command command => some command
    | _ => none

theorem command?_eq_some {line : Bytes} {command : Command} :
    command? line = some command ↔
      ∃ text, decode (chomp line) = .ok text ∧ Entry.ofLine text = .command command := by
  unfold command?
  cases decode (chomp line) with
  | error fault => simp
  | ok text => cases h : Entry.ofLine text <;> simp [h]

theorem continues_of_command? {line : Bytes} {command : Command}
    (h : command? line = some command) : Continues line := by
  obtain ⟨text, hd, he⟩ := command?_eq_some.mp h
  exact continues_of_ofLine hd (by simp [he])

namespace Session

variable (w : World) (answers : Answers)

-- ---------------------------------------------------------------------------
-- One line after the other
-- ---------------------------------------------------------------------------

/-- What a line leads to, with the prompt for the next one. A line that cannot be read changes
nothing. -/
def next (s : Session) (line : Bytes) : Session :=
  match decode (chomp line) with
  | .ok text => (s.enter w answers (Entry.ofLine text)).print promptText
  | .error _ => s

theorem follow_cons_continues {line : Bytes} (h : Continues line) (s : Session)
    (rest : List Bytes) :
    follow w answers s (line :: rest) = follow w answers (s.next w answers line) rest := by
  obtain ⟨text, hd, hq⟩ := h
  have hn : Entry.ofLine text ≠ .quit := (ofLine_eq_quit_iff text).not.mpr (not_or.mpr hq)
  simp only [follow, next, hd]

theorem follow_append {first : List Bytes} (h : ∀ line ∈ first, Continues line) (s : Session)
    (second : List Bytes) :
    follow w answers s (first ++ second) =
      follow w answers (first.foldl (next w answers) s) second := by
  induction first generalizing s with
  | nil => rfl
  | cons line rest ih =>
    rw [List.cons_append, follow_cons_continues w answers (h line List.mem_cons_self),
      ih fun l hl => h l (List.mem_cons_of_mem _ hl), List.foldl_cons]

theorem follow_cons_quits {line : Bytes} (h : Quits line) (s : Session) (rest : List Bytes) :
    follow w answers s (line :: rest) = (none, s.print "\n") := by
  obtain ⟨text, hd, hq⟩ := h
  simp only [follow, hd, (ofLine_eq_quit_iff text).mpr hq]

theorem follow_cons_unreadable {line : Bytes} {fault : Fault}
    (h : decode (chomp line) = .error fault) (s : Session) (rest : List Bytes) :
    follow w answers s (line :: rest) = (some fault, s) := by
  simp only [follow, h]

-- ---------------------------------------------------------------------------
-- What a line does
-- ---------------------------------------------------------------------------

def step (s : Session) (command : Command) : Step :=
  ⟨w, (s.prepare command).host, answers s.requests.size, command⟩

def reaction (s : Session) (command : Command) : Reaction Unit :=
  s.navigator.react (s.step w answers command)

@[simp] theorem prepare_navigator (s : Session) (command : Command) :
    (s.prepare command).navigator = s.navigator := by
  cases command with
  | find kind symbol => cases symbol <;> rfl
  | select | popMark | setDirectory => rfl

@[simp] theorem prepare_requests (s : Session) (command : Command) :
    (s.prepare command).requests = s.requests := by
  cases command with
  | find kind symbol => cases symbol <;> rfl
  | select | popMark | setDirectory => rfl

theorem prepare_transcript (s : Session) (command : Command) :
    ∃ told, (s.prepare command).transcript = s.transcript ++ told := by
  have hsilent : s.transcript = s.transcript ++ "" := by simp
  cases command with
  | find kind symbol =>
    cases symbol with
    | none => exact ⟨_, rfl⟩
    | some symbol => exact ⟨"", hsilent⟩
  | select | popMark | setDirectory => exact ⟨"", hsilent⟩

theorem next_of_command {line : Bytes} {command : Command} (h : command? line = some command)
    (s : Session) :
    s.next w answers line =
      { navigator := (s.reaction w answers command).navigator
        host := (s.prepare command).host.followAll (s.reaction w answers command).events
        requests := s.requests ++ (s.reaction w answers command).requests
        transcript := (s.prepare command).transcript ++
          String.join ((s.reaction w answers command).events.map render) ++ promptText } := by
  obtain ⟨text, hd, he⟩ := command?_eq_some.mp h
  simp only [next, hd, he, enter, run, print, prepare_navigator, prepare_requests, reaction,
    Navigator.react, step]

theorem enter_of_no_command {entry : Entry} (h : ∀ command, entry ≠ .command command)
    (s : Session) : ∃ told, s.enter w answers entry = s.print told := by
  cases entry with
  | blank | quit => exact ⟨"", by simp [enter, print]⟩
  | help | unknown => exact ⟨_, rfl⟩
  | command command => exact absurd rfl (h command)

theorem next_of_no_command {line : Bytes} (h : command? line = none) (s : Session) :
    ∃ told, s.next w answers line = s.print told := by
  cases hd : decode (chomp line) with
  | error fault => exact ⟨"", by simp [next, hd, print]⟩
  | ok text =>
    have hn (command : Command) : Entry.ofLine text ≠ .command command := fun he => by
      rw [command?_eq_some.mpr ⟨text, hd, he⟩] at h
      cases h
    obtain ⟨told, ht⟩ := enter_of_no_command w answers hn s
    refine ⟨told ++ promptText, ?_⟩
    simp only [next, hd]
    rw [ht]
    simp [print, String.append_assoc]

-- ---------------------------------------------------------------------------
-- Requests
-- ---------------------------------------------------------------------------

def asked (s : Session) (line : Bytes) : List Query.Request :=
  (command? line).elim [] fun command => (s.reaction w answers command).requests

theorem next_requests (s : Session) (line : Bytes) :
    (s.next w answers line).requests = s.requests ++ s.asked w answers line := by
  unfold asked
  cases hc : command? line with
  | none =>
    obtain ⟨told, hn⟩ := next_of_no_command w answers hc s
    rw [hn]
    simp [print]
  | some command =>
    rw [next_of_command w answers hc]
    rfl

theorem size_requests_next (s : Session) (line : Bytes) :
    (s.next w answers line).requests.size = s.requests.size + (s.asked w answers line).length := by
  rw [next_requests, ← Array.length_toList, Array.toList_appendList, List.length_append,
    Array.length_toList]

theorem size_requests_foldl_next (lines : List Bytes) (s : Session) :
    s.requests.size ≤ (lines.foldl (next w answers) s).requests.size := by
  induction lines generalizing s with
  | nil => exact Nat.le_refl _
  | cons line rest ih =>
    refine Nat.le_trans ?_ (ih (s.next w answers line))
    rw [size_requests_next]
    exact Nat.le_add_right _ _

theorem quiet_cons {line : Bytes} {rest : List Bytes} {s : Session}
    (h : ((line :: rest).foldl (next w answers) s).requests = s.requests) :
    s.asked w answers line = [] ∧
      (rest.foldl (next w answers) (s.next w answers line)).requests =
        (s.next w answers line).requests := by
  have hsize := size_requests_foldl_next w answers rest (s.next w answers line)
  rw [List.foldl_cons] at h
  have ha : s.asked w answers line = [] := by
    rw [h, size_requests_next] at hsize
    exact List.eq_nil_of_length_eq_zero (by omega)
  refine ⟨ha, ?_⟩
  rw [h, next_requests, ha, Array.appendList_nil]

-- ---------------------------------------------------------------------------
-- What was told before
-- ---------------------------------------------------------------------------

/-- The session with more told before all that it has told. -/
def after (s : Session) (told : String) : Session := { s with transcript := told ++ s.transcript }

theorem print_after (s : Session) (told text : String) :
    (s.after told).print text = (s.print text).after told := by
  simp [print, after, String.append_assoc]

theorem prepare_after (s : Session) (told : String) (command : Command) :
    (s.after told).prepare command = (s.prepare command).after told := by
  cases command with
  | find kind symbol =>
    cases symbol with
    | none => exact print_after s told _
    | some symbol => rfl
  | select | popMark | setDirectory => rfl

theorem run_after (s : Session) (told : String) (command : Command) :
    (s.after told).run w answers command = (s.run w answers command).after told := by
  simp [run, after, String.append_assoc]

theorem enter_after (s : Session) (told : String) (entry : Entry) :
    (s.after told).enter w answers entry = (s.enter w answers entry).after told := by
  cases entry with
  | blank | quit => rfl
  | help => exact print_after s told _
  | unknown e => exact print_after s told _
  | command command => rw [enter, prepare_after, run_after, enter]

theorem next_after (s : Session) (told : String) (line : Bytes) :
    (s.after told).next w answers line = (s.next w answers line).after told := by
  unfold next
  split
  · rw [enter_after, print_after]
  · rfl

theorem foldl_next_after (lines : List Bytes) (s : Session) (told : String) :
    lines.foldl (next w answers) (s.after told) = (lines.foldl (next w answers) s).after told := by
  induction lines generalizing s with
  | nil => rfl
  | cons line rest ih => rw [List.foldl_cons, List.foldl_cons, next_after, ih]

theorem follow_after (lines : List Bytes) (s : Session) (told : String) :
    follow w answers (s.after told) lines =
      ((follow w answers s lines).1, (follow w answers s lines).2.after told) := by
  induction lines generalizing s with
  | nil => simp only [follow, print_after]
  | cons line rest ih =>
    rcases continues_or_quits_or_unreadable line with h | h | ⟨fault, h⟩
    · rw [follow_cons_continues w answers h, follow_cons_continues w answers h, next_after, ih]
    · rw [follow_cons_quits w answers h, follow_cons_quits w answers h, print_after]
    · rw [follow_cons_unreadable w answers h, follow_cons_unreadable w answers h]

-- ---------------------------------------------------------------------------
-- Input in parts
-- ---------------------------------------------------------------------------

theorem after_transcript (s : Session) :
    ({ s with transcript := "" } : Session).after s.transcript = s := by
  simp [after]

def reached (s : Session) (input : Bytes) : Session :=
  (lines input).foldl (next w answers) (s.print promptText)

theorem reached_transcript (s : Session) (input : Bytes) :
    ∃ told, (s.reached w answers input).transcript = s.transcript ++ told := by
  have h : s.reached w answers input =
      (({ s with transcript := "" } : Session).reached w answers input).after s.transcript := by
    unfold reached
    rw [← foldl_next_after, ← print_after, after_transcript]
  exact ⟨_, congrArg transcript h⟩

theorem start_append_eq_follow (s : Session) {first : Bytes} (hf : Ended first)
    (hc : ∀ line ∈ lines first, Continues line) (second : Bytes) :
    s.start w answers (first ++ second) =
      follow w answers (s.reached w answers first) (lines second) := by
  rw [start, lines_append hf, follow_append w answers hc, reached]

theorem start_eq_reached (s : Session) {input : Bytes}
    (hc : ∀ line ∈ lines input, Continues line) :
    s.start w answers input = (none, (s.reached w answers input).print "\n") := by
  rw [start, ← List.append_nil (lines input), follow_append w answers hc, follow, reached]

/-- Input in two parts is gone through like the one part and then the other, but for the end of
the first session and the prompt of the second. A line of the second part that cannot be read, if
it comes first, ends the session where the first part left it. After a line that quits nothing is
looked at. -/
theorem start_append (s : Session) {first : Bytes} (hf : Ended first) (second : Bytes) :
    ((∀ line ∈ lines first, Continues line) →
      ∃ middle told later,
        s.start w answers first = (none, middle) ∧
        middle.transcript = s.transcript ++ told ++ "\n" ∧
        (middle.start w answers second).2.transcript =
          middle.transcript ++ promptText ++ later ∧
        s.start w answers (first ++ second) =
          ((middle.start w answers second).1,
            { (middle.start w answers second).2 with
              transcript := s.transcript ++ told ++ later }) ∧
        ∀ line rest fault, lines second = line :: rest → decode (chomp line) = .error fault →
          ∃ last, s.start w answers (first ++ second) = (some fault, last) ∧
            middle = last.print "\n") ∧
    ((∃ before line rest, lines first = before ++ line :: rest ∧
        (∀ earlier ∈ before, Continues earlier) ∧ Quits line) →
      (s.start w answers first).1 = none ∧
        s.start w answers (first ++ second) = s.start w answers first) := by
  constructor
  · intro hc
    have hjoin := s.start_append_eq_follow w answers hf hc second
    have hend := s.start_eq_reached w answers hc
    obtain ⟨told, ht⟩ := s.reached_transcript w answers first
    generalize s.reached w answers first = m at hjoin hend ht
    -- Both sessions go through the second part from the same session that has told nothing yet.
    let silent : Session := { m with transcript := "" }
    have hm : m = silent.after m.transcript := (after_transcript m).symm
    have hsecond : (m.print "\n").start w answers second =
        ((follow w answers silent (lines second)).1,
          (follow w answers silent (lines second)).2.after
            (m.transcript ++ "\n" ++ promptText)) := by
      rw [← follow_after]
      simp [start, print, after, silent]
    refine ⟨m.print "\n", told, (follow w answers silent (lines second)).2.transcript, hend, ?_,
      ?_, ?_, fun line rest fault hl hd => ⟨m, ?_, rfl⟩⟩
    · rw [print, ht]
    · rw [hsecond]
      rfl
    · rw [hjoin, hsecond, hm, follow_after, ← hm, ht]
      rfl
    · rw [hjoin, hl, follow_cons_unreadable w answers hd]
  · rintro ⟨before, line, rest, hl, hb, hq⟩
    rw [start, start, lines_append hf, hl, List.append_assoc, List.cons_append,
      follow_append w answers hb, follow_append w answers hb, follow_cons_quits w answers hq,
      follow_cons_quits w answers hq]
    exact ⟨rfl, rfl⟩

end Session
end Xref.Terminal

namespace Xref.Sample

open Text.Utf8 (encode)

def session : Terminal.Session := { navigator := fresh }

def answers : Terminal.Answers := fun _ _ => .ok oneMatch

def twoLines : Bytes := encode "find-callers run\n" ++ encode "\r\n"

def quitting : Bytes := encode " quit\n" ++ 0xFF :: encode "\nfind-callers\n"

end Xref.Sample

namespace Xref.Terminal.Session

open Text.Utf8 (encode)

theorem start_append_unreadable :
    (∀ line ∈ lines Sample.twoLines, Continues line) ∧
      (∃ middle last, Sample.session.start Sample.world Sample.answers Sample.twoLines =
          (none, middle) ∧
        Sample.session.start Sample.world Sample.answers
          (Sample.twoLines ++ [0xFF, Listing.newline]) = (some ⟨0, some 1⟩, last) ∧
        middle = last.print "\n") ∧
      Sample.session.start Sample.world Sample.answers (Sample.quitting ++ [0xFF]) =
        Sample.session.start Sample.world Sample.answers Sample.quitting := by
  have hc : ∀ line ∈ lines Sample.twoLines, Continues line := by
    have hl : lines Sample.twoLines = [encode "find-callers run\n", encode "\r\n"] := by
      decide +kernel
    rw [hl, List.forall_mem_cons, List.forall_mem_singleton]
    exact ⟨⟨"find-callers run", by decide +kernel⟩, ⟨"", by decide +kernel⟩⟩
  have hq : ∃ before line rest, lines Sample.quitting = before ++ line :: rest ∧
      (∀ earlier ∈ before, Continues earlier) ∧ Quits line :=
    ⟨[], encode " quit\n", [[0xFF, Listing.newline], encode "find-callers\n"],
      by decide +kernel, by simp, " quit", by decide +kernel⟩
  obtain ⟨middle, told, later, hm, -, -, -, hbad⟩ :=
    (start_append Sample.world Sample.answers Sample.session (by decide +kernel)
      [0xFF, Listing.newline]).1 hc
  obtain ⟨last, hlast, he⟩ := hbad [0xFF, Listing.newline] [] ⟨0, some 1⟩ (by decide) (by decide)
  exact ⟨hc, ⟨middle, last, hm, hlast, he⟩,
    ((start_append Sample.world Sample.answers Sample.session (by decide +kernel) [0xFF]).2 hq).2⟩

end Xref.Terminal.Session
