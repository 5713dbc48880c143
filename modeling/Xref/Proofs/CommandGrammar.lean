import Xref.Command
import Xref.Proofs.Words

/-!
# The grammar of command lines

A line is the name of a command and, after white space, the text that the command is given. White
space around them does not count, and white space inside the text is part of it. The reader takes
the lines of this grammar and no other, and each of them for one command.

Nothing is said here of what a command then does with its text.
-/

namespace Xref

-- ---------------------------------------------------------------------------
-- Words with white space around
-- ---------------------------------------------------------------------------

namespace Text

variable {name text : String} {argument : Option String}

/-- One word, or a word and a text that runs to the end. White space may stand around both, and some
stands between them. -/
inductive Spaced (name text : String) : Option String → Prop
  | alone {before after : List Char} (hb : Blanks before) (ha : Blanks after)
      (h : text.toList = before ++ name.toList ++ after) : Spaced name text none
  | followed {before between after : List Char} {argument : String} (hb : Blanks before)
      (hm : Blanks between) (hne : between ≠ []) (ht : Tight argument.toList) (ha : Blanks after)
      (h : text.toList = before ++ (name.toList ++ between ++ argument.toList) ++ after) :
      Spaced name text (some argument)

theorem Spaced.tight {argument : String} (h : Spaced name text (some argument)) :
    Tight argument.toList := by
  cases h with
  | followed _ _ _ ht _ _ => exact ht

theorem Spaced.subset {argument : String} (h : Spaced name text (some argument)) :
    argument.toList ⊆ text.toList := by
  cases h with
  | followed _ _ _ _ _ htext =>
    rw [htext]
    intro c hc
    simp [hc]

theorem exists_spaced (h : trimChars text.toList ≠ []) :
    ∃ name argument, Word name.toList ∧ Spaced name text argument := by
  obtain ⟨before, after, hb, ha, htext, hcore⟩ := exists_trimChars text.toList
  obtain ⟨name, hw, hname | ⟨b, rest, hblank, hname⟩⟩ := (hcore.resolve_left h).exists_word
  · rw [hname] at htext
    refine ⟨String.ofList name, none, by simpa using hw, .alone hb ha (by simpa using htext)⟩
  · obtain ⟨between, behind, hm, hr, hrest, hargument⟩ := exists_trimChars rest
    have hgap : Blanks (b :: between) := List.forall_mem_cons.mpr ⟨hblank, hm⟩
    have hend : Blanks (behind ++ after) := List.forall_mem_append.mpr ⟨hr, ha⟩
    have hword : Word (String.ofList name).toList := by simpa using hw
    rw [hname, hrest] at htext
    obtain hnil | ht := hargument
    · -- Nothing but white space follows the word.
      have hafter : Blanks (b :: between ++ (behind ++ after)) :=
        List.forall_mem_append.mpr ⟨hgap, hend⟩
      exact ⟨_, none, hword, .alone hb hafter (by simpa [hnil] using htext)⟩
    · have hargument : Tight (String.ofList (trimChars rest)).toList := by simpa using ht
      exact ⟨_, some _, hword, .followed hb hgap (List.cons_ne_nil _ _) hargument hend
        (by simpa using htext)⟩

end Text

-- ---------------------------------------------------------------------------
-- Commands by name
-- ---------------------------------------------------------------------------

theorem Query.Kind.ofName?_eq_some_iff {name : String} {kind : Query.Kind} :
    ofName? name = some kind ↔ name = kind.name := by
  constructor
  · intro h
    unfold ofName? at h
    have hn := List.find?_some h
    exact (of_decide_eq_true hn).symm
  · rintro rfl
    exact ofName?_name kind

theorem Query.Kind.word_name (kind : Query.Kind) : Text.Word kind.name.toList := by
  cases kind <;> decide

namespace Command

def name : Command → String
  | .find kind _ => kind.name
  | .select _ => "select"
  | .popMark => "pop-navigation-mark"
  | .setDirectory _ => "set-database-directory"

def argument : Command → Option String
  | .find _ symbol => symbol
  | .select index => some (toString (index + 1))
  | .popMark => none
  | .setDirectory path => some path

/-- Has a line: its text is all of what stands on the line after the name, and its number is that of
a machine word. -/
def Writable : Command → Prop
  | .find _ symbol => ∀ word ∈ symbol, Text.Tight word.toList
  | .select index => index + 1 < Numeral.wordLimit
  | .popMark => True
  | .setDirectory path => Text.Tight path.toList

/-- A text that the command takes. Any number may be written in several ways, and going back takes
whatever it is given. -/
def Takes : Command → Option String → Prop
  | .find _ symbol, argument => argument = symbol
  | .select index, argument =>
    ∃ word, argument = some word ∧ Numeral.Spells (index + 1) word.toList ∧
      index + 1 < Numeral.wordLimit
  | .popMark, _ => True
  | .setDirectory path, argument => argument = some path

def Line (command : Command) (text : String) : Prop :=
  ∃ argument, command.Takes argument ∧ Text.Spaced command.name text argument

variable {command : Command} {name text : String} {argument : Option String}

theorem word_name (command : Command) : Text.Word command.name.toList := by
  cases command with
  | find kind _ => exact kind.word_name
  | select _ => exact (by decide : Text.Word "select".toList)
  | popMark => decide
  | setDirectory _ => exact (by decide : Text.Word "set-database-directory".toList)

theorem takes_argument (h : command.Writable) : command.Takes command.argument := by
  cases command with
  | select index =>
    exact ⟨toString (index + 1), rfl, Numeral.spells_toString (index + 1), h⟩
  | popMark => trivial
  | _ => rfl

theorem position?_eq_some_iff {index : Nat} :
    position? text = some index ↔
      Numeral.Spells (index + 1) text.toList ∧ index + 1 < Numeral.wordLimit := by
  rw [← Numeral.word?_eq_some_iff, position?]
  cases Numeral.word? text with
  | none => simp
  | some n => cases n <;> simp

theorem ofName?_name (h : command.Takes argument) :
    ofName? command.name argument = some command := by
  cases command with
  | find kind symbol =>
    obtain rfl := h
    simp [ofName?, name, Query.Kind.ofName?_name]
  | select index =>
    obtain ⟨word, rfl, hw⟩ := h
    have hkind : Query.Kind.ofName? "select" = none := by decide
    simp [ofName?, name, hkind, position?_eq_some_iff.mpr hw]
  | popMark =>
    have hkind : Query.Kind.ofName? "pop-navigation-mark" = none := by decide
    simp [ofName?, name, hkind]
  | setDirectory path =>
    obtain rfl := h
    have hkind : Query.Kind.ofName? "set-database-directory" = none := by decide
    simp [ofName?, name, hkind]

theorem ofName?_eq_some_iff :
    ofName? name argument = some command ↔ name = command.name ∧ command.Takes argument := by
  constructor
  · intro h
    unfold ofName? at h
    split at h
    · next kind hk =>
      obtain rfl := Option.some.inj h
      exact ⟨Query.Kind.ofName?_eq_some_iff.mp hk, rfl⟩
    split at h
    · next hn =>
      obtain rfl := Option.some.inj h
      exact ⟨hn, trivial⟩
    split at h
    · next hn =>
      obtain ⟨path, rfl, rfl⟩ := Option.map_eq_some_iff.mp h
      exact ⟨hn, rfl⟩
    split at h
    · next hn =>
      obtain ⟨index, hp, rfl⟩ := Option.map_eq_some_iff.mp h
      obtain ⟨word, rfl, hw⟩ := Option.bind_eq_some_iff.mp hp
      exact ⟨hn, word, rfl, position?_eq_some_iff.mp hw⟩
    · cases h
  · rintro ⟨rfl, ht⟩
    exact ofName?_name ht

theorem split_trim (hw : Text.Word name.toList) (h : Text.Spaced name text argument) :
    split (Text.trim text) = (name, argument) := by
  cases h with
  | alone hb ha htext =>
    have hall : name.toList.dropWhile (!Text.isBlank ·) = [] :=
      List.dropWhile_eq_nil_iff.mpr (by simpa using hw.ink)
    rw [hw.tight.trim_append hb ha htext, String.ofList_toList]
    simp only [split, Text.splitBlank, hall]
  | @followed before between after argument hb hm hne ht ha htext =>
    have hall : name.toList.all (!Text.isBlank ·) = true := by simpa using hw.ink
    obtain ⟨b, more, rfl⟩ := List.exists_cons_of_ne_nil hne
    obtain ⟨hblank, hmore⟩ := List.forall_mem_cons.mp hm
    have hrest : Text.trim (String.ofList (more ++ argument.toList)) = argument := by
      rw [ht.trim_append hmore (List.forall_mem_nil _) (by simp), String.ofList_toList]
    have hne : argument.isEmpty = false := by simpa using ht.isEmpty
    rw [(hw.tight.append ht _).trim_append hb ha htext, List.append_assoc, List.cons_append]
    simp only [split, Text.splitBlank_append hall hblank, hrest, hne, String.ofList_toList,
      Bool.false_eq_true, if_false]

theorem parse_eq_ok_iff_of_spaced (hw : Text.Word name.toList)
    (hs : Text.Spaced name text argument) :
    parse text = .ok command ↔ name = command.name ∧ command.Takes argument := by
  rw [← ofName?_eq_some_iff]
  simp only [parse, split_trim hw hs]
  cases ofName? name argument <;> simp

theorem parse_eq_ok_iff : parse text = .ok command ↔ command.Line text := by
  constructor
  · intro h
    have hne : Text.trimChars text.toList ≠ [] := fun hblank => by
      -- An empty line names no command.
      rw [parse, Text.trim, hblank] at h
      cases h
    obtain ⟨name, argument, hw, hs⟩ := Text.exists_spaced hne
    obtain ⟨rfl, ht⟩ := (parse_eq_ok_iff_of_spaced hw hs).mp h
    exact ⟨argument, ht, hs⟩
  · rintro ⟨argument, ht, hs⟩
    exact (parse_eq_ok_iff_of_spaced command.word_name hs).mpr ⟨rfl, ht⟩

theorem parse_eq_error_iff {e : UnknownCommand} :
    parse text = .error e ↔ (∀ command : Command, ¬command.Line text) ∧ e = ⟨Text.trim text⟩ := by
  have herror {e : UnknownCommand} (h : parse text = .error e) : e = ⟨Text.trim text⟩ := by
    simp only [parse] at h
    split at h
    · cases h
    · exact (Except.error.inj h).symm
  constructor
  · intro h
    refine ⟨fun command hl => ?_, herror h⟩
    rw [parse_eq_ok_iff.mpr hl] at h
    cases h
  · rintro ⟨hn, rfl⟩
    cases h : parse text with
    | ok command => exact absurd (parse_eq_ok_iff.mp h) (hn command)
    | error e => rw [herror h]

theorem Line.unique {other : Command} (h : command.Line text) (h' : other.Line text) :
    command = other :=
  Except.ok.inj ((parse_eq_ok_iff.mpr h).symm.trans (parse_eq_ok_iff.mpr h'))

theorem writable_of_line (h : command.Line text) : command.Writable := by
  obtain ⟨argument, ht, hs⟩ := h
  cases command with
  | find kind symbol =>
    obtain rfl := ht
    rintro symbol rfl
    exact hs.tight
  | select index =>
    obtain ⟨-, -, -, hlt⟩ := ht
    exact hlt
  | popMark => trivial
  | setDirectory path =>
    obtain rfl := ht
    exact hs.tight

-- ---------------------------------------------------------------------------
-- Selections
-- ---------------------------------------------------------------------------

theorem eq_select_of_name (h : "select" = command.name) : ∃ index, command = .select index := by
  cases command with
  | find kind _ =>
    have hne : "select" ≠ kind.name := by cases kind <;> decide
    exact absurd h hne
  | select index => exact ⟨index, rfl⟩
  | popMark => exact absurd h (by decide)
  | setDirectory _ => exact absurd h (by decide : "select" ≠ "set-database-directory")

theorem parse_select_eq_error {word : String} (hs : Text.Spaced "select" text (some word))
    (hn : ∀ n, Numeral.Spells n word.toList → n = 0 ∨ Numeral.wordLimit ≤ n) :
    parse text = .error ⟨Text.trim text⟩ := by
  refine parse_eq_error_iff.mpr ⟨fun command hl => ?_, rfl⟩
  obtain ⟨hname, ht⟩ := (parse_eq_ok_iff_of_spaced (by decide) hs).mp (parse_eq_ok_iff.mpr hl)
  obtain ⟨index, rfl⟩ := eq_select_of_name hname
  obtain ⟨number, he, hw, hlt⟩ := ht
  obtain rfl := Option.some.inj he
  obtain h | h := hn _ hw
  · cases h
  · exact absurd hlt (Nat.not_lt.mpr h)

theorem parse_select {number : Nat} {word : String}
    (hs : Text.Spaced "select" text (some word)) (hw : Numeral.Spells number word.toList) :
    parse text = if 0 < number ∧ number < Numeral.wordLimit then .ok (.select (number - 1))
      else .error ⟨Text.trim text⟩ := by
  by_cases h : 0 < number ∧ number < Numeral.wordLimit
  · rw [if_pos h]
    obtain ⟨index, rfl⟩ := Nat.exists_eq_succ_of_ne_zero h.1.ne'
    exact parse_eq_ok_iff.mpr ⟨some word, ⟨word, rfl, hw, h.2⟩, hs⟩
  · rw [if_neg h]
    refine parse_select_eq_error hs fun n hn => ?_
    obtain rfl := hw.unique hn
    omega

/-- A command is read from each line that it is written on, and what is read was written on the
line: what cannot be written is never read, and every other line is refused as it stands but for the
white space around it. Inside a text white space is kept, so a selection takes one word, and of
numbers only those of entries. -/
theorem parse_grammar (text : String) :
    (∀ command : Command, command.Writable → Text.Spaced command.name text command.argument →
      parse text = .ok command) ∧
    (∀ command, parse text = .ok command ↔ command.Line text) ∧
    (∀ command : Command, command.Line text → command.Writable) ∧
    (∀ e, parse text = .error e ↔
      (∀ command : Command, ¬command.Line text) ∧ e = ⟨Text.trim text⟩) ∧
    (∀ n word, Text.Spaced "select" text (some word) → Numeral.Spells n word.toList →
      n = 0 ∨ Numeral.wordLimit ≤ n → parse text = .error ⟨Text.trim text⟩) ∧
    (∀ word, Text.Spaced "select" text (some word) → ¬Text.Word word.toList →
      parse text = .error ⟨Text.trim text⟩) := by
  refine ⟨fun command hc hs => parse_eq_ok_iff.mpr ⟨_, takes_argument hc, hs⟩,
    fun command => parse_eq_ok_iff, fun command => writable_of_line, fun e => parse_eq_error_iff,
    fun n word hs hw hn => ?_, fun word hs hw => ?_⟩
  · rw [parse_select hs hw, if_neg (by omega)]
  · exact parse_select_eq_error hs fun m hm => absurd hm.isWord hw

theorem parse_grammar_inner_blanks :
    parse "\tfind-text  int  main \n" = .ok (.find .text (some "int  main")) ∧
      parse " select 2 3" = .error ⟨"select 2 3"⟩ := by
  have hsymbol : Text.Tight "int  main".toList :=
    ⟨⟨'i', rfl, by decide⟩, ⟨'n', rfl, by decide⟩⟩
  have hnumbers : Text.Tight "2 3".toList := ⟨⟨'2', rfl, by decide⟩, ⟨'3', rfl, by decide⟩⟩
  have hfind : Text.Spaced "find-text" "\tfind-text  int  main \n" (some "int  main") :=
    @Text.Spaced.followed _ _ ['\t'] [' ', ' '] [' ', '\n'] _ (by decide) (by decide) (by decide)
      hsymbol (by decide) rfl
  have hselect : Text.Spaced "select" " select 2 3" (some "2 3") :=
    @Text.Spaced.followed _ _ [' '] [' '] [] _ (by decide) (by decide) (by decide) hnumbers
      (by decide) rfl
  have hwritable : Command.Writable (.find .text (some "int  main")) := by
    intro word hw
    rw [← Option.some.inj hw]
    exact hsymbol
  exact ⟨(parse_grammar _).1 (.find .text (some "int  main")) hwritable hfind,
    (parse_grammar _).2.2.2.2.2 "2 3" hselect (by decide)⟩

end Command
end Xref
