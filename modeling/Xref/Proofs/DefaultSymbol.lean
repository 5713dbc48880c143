import Xref.Proofs.CommandGrammar
import Xref.Proofs.Gate
import Xref.Proofs.Session

/-!
# The default symbol

A find without a symbol takes the symbol of the latest find that had one, however that one ended.
What its prompt shows is then what it looks up: without a default on the prompt it looks nothing
up. No other line has a part in this, although jumps move the host that keeps the word.
-/

namespace Xref

def Command.symbol? : Command → Option String
  | .find _ symbol => symbol
  | .select _ | .popMark | .setDirectory _ => none

theorem Inked.ne_empty {text : String} (h : Inked text) : text ≠ "" := by
  obtain ⟨c, hc, -⟩ := h
  rintro rfl
  cases hc

theorem Text.Tight.inked {text : String} (h : Tight text.toList) : Inked text := by
  obtain ⟨c, hc, hn⟩ := h.first
  exact ⟨c, List.mem_of_head? hc, hn⟩

theorem Command.inked_of_parse {line symbol : String} {command : Command}
    (h : parse line = .ok command) (hs : command.symbol? = some symbol) : Inked symbol := by
  have hw : command.Writable := writable_of_line (parse_eq_ok_iff.mp h)
  cases command with
  | find kind found =>
    obtain rfl := hs
    exact (hw symbol rfl).inked
  | _ => cases hs

@[simp] theorem Host.followAll_word (host : Host) (events : List Event) :
    (host.followAll events).word = host.word := by
  induction events generalizing host with
  | nil => rfl
  | cons event rest ih =>
    have hf : (host.follow event).word = host.word := by cases event <;> rfl
    exact (ih (host.follow event)).trans hf

namespace Terminal

def symbol? (line : Bytes) : Option String := (command? line).bind Command.symbol?

def latest? (lines : List Bytes) : Option String := (lines.filterMap symbol?).getLast?

/-- What a find without a symbol prints first: its prompt, and the word that it takes as if it had
been typed there. -/
def promptLine (kind : Query.Kind) : Option String → String
  | some word => kind.description ++ " [default " ++ word ++ "]: " ++ word ++ "\n"
  | none => kind.description ++ ": \n"

theorem latest?_concat (lines : List Bytes) (line : Bytes) :
    latest? (lines ++ [line]) = (symbol? line).or (latest? lines) := by
  unfold latest?
  rw [List.filterMap_append, List.getLast?_append]
  cases h : symbol? line <;> simp [h]

theorem inked_of_symbol? {line : Bytes} {symbol : String} (h : symbol? line = some symbol) :
    Inked symbol := by
  obtain ⟨command, hc, hs⟩ := Option.bind_eq_some_iff.mp h
  obtain ⟨text, -, he⟩ := command?_eq_some.mp hc
  exact Command.inked_of_parse (ofLine_eq_command he) hs

theorem inked_of_latest? {lines : List Bytes} {symbol : String}
    (h : latest? lines = some symbol) : Inked symbol := by
  obtain ⟨line, -, hs⟩ := List.mem_filterMap.mp (List.mem_of_getLast? h)
  exact inked_of_symbol? hs

/-- The prompt leaves out a default that is empty, which no line leaves behind. -/
theorem prompt_eq_promptLine (kind : Query.Kind) {default : Option String}
    (h : ∀ word, default = some word → Inked word) :
    kind.prompt default ++ default.getD "" ++ "\n" = promptLine kind default := by
  cases default with
  | none => simp [Query.Kind.prompt, promptLine, String.append_assoc]
  | some word => simp [Query.Kind.prompt, promptLine, (h word rfl).ne_empty]

namespace Session

variable (w : World) (answers : Answers)

theorem prepare_word (s : Session) (command : Command) :
    (s.prepare command).host.word = command.symbol?.or s.host.word := by
  cases command with
  | find kind symbol => cases symbol <;> rfl
  | select | popMark | setDirectory => rfl

theorem next_word (s : Session) (line : Bytes) :
    (s.next w answers line).host.word = (symbol? line).or s.host.word := by
  unfold symbol?
  cases hc : command? line with
  | none =>
    obtain ⟨told, hn⟩ := next_of_no_command w answers hc s
    rw [hn]
    rfl
  | some command =>
    rw [next_of_command w answers hc]
    exact (Host.followAll_word _ _).trans (s.prepare_word command)

theorem foldl_next_word (s : Session) (lines : List Bytes) :
    (lines.foldl (next w answers) s).host.word = (latest? lines).or s.host.word := by
  induction lines using List.reverseRecOn with
  | nil => rfl
  | append_singleton lines line ih =>
    rw [List.foldl_append, List.foldl_cons, List.foldl_nil, next_word, ih, latest?_concat,
      Option.or_assoc]

theorem word_of_mem_requests {s : Session} {kind : Query.Kind} {request : Query.Request}
    (h : request ∈ (s.reaction w answers (.find kind none)).requests) :
    s.host.word = some request.symbol := by
  obtain ⟨⟨notices, ha⟩, -, -⟩ := Navigator.asks_of_mem_requests h
  obtain ⟨symbol, hc, hs⟩ := ha.symbol
  obtain ⟨-, rfl⟩ : kind = request.kind ∧ none = symbol := by simpa [step] using hc
  obtain ⟨hn, -⟩ | ⟨-, hw, -⟩ := Navigator.chooseSymbol_eq_some.mp hs
  · cases hn
  · exact hw

theorem requests_of_word {s : Session} {kind : Query.Kind} {word directory : String}
    {notices : List Event} (hw : s.host.word = some word) (hi : Inked word)
    (hk : kind.supported = true) (hr : s.navigator.resolve w = some (directory, notices)) :
    (s.reaction w answers (.find kind none)).requests = [⟨kind, word, directory⟩] := by
  have hresolve : s.navigator.resolve (s.step w answers (.find kind none)).world =
      some (directory, notices) := hr
  have hchosen : Navigator.chooseSymbol none (s.step w answers (.find kind none)).host.word =
      some word :=
    Navigator.chooseSymbol_eq_some.mpr (.inr ⟨by simp, (s.prepare_word _).trans hw, hi⟩)
  rw [reaction, Navigator.react, Navigator.run_eq]
  exact congrArg Reaction.requests
    (Navigator.find_asks ⟨kind, word, directory⟩ hk hresolve hchosen)

/-- In a session that starts without a word, the word at a line is the symbol of the latest line
before it that has one, and the line itself puts no other in its place than its own symbol. A find
without a symbol shows this word as its default and enters it, or shows none. Whatever it then asks
for is the default, so without one it asks for nothing; with one it does ask, if its kind is
supported and there is a database. -/
theorem default_symbol {s : Session} (hs : s.host.word = none) {input line : Bytes}
    {before rest : List Bytes} (hl : lines input = before ++ line :: rest)
    (hc : ∀ earlier ∈ before, Continues earlier) :
    let reached := before.foldl (next w answers) (s.print promptText)
    let after := reached.next w answers line
    s.start w answers input = follow w answers reached (line :: rest) ∧
      reached.host.word = latest? before ∧
      after.host.word = (symbol? line).or (latest? before) ∧
      ∀ kind, command? line = some (.find kind none) →
        s.start w answers input = follow w answers after rest ∧
          (∃ told, after.transcript =
            reached.transcript ++ promptLine kind (latest? before) ++ told ++ promptText) ∧
          (∃ new : List Query.Request, after.requests = reached.requests ++ new ∧
            ∀ request ∈ new, latest? before = some request.symbol) ∧
          (latest? before = none → after.requests = reached.requests) ∧
          ∀ word directory notices, latest? before = some word → kind.supported = true →
            reached.navigator.resolve w = some (directory, notices) →
            after.requests = reached.requests.push ⟨kind, word, directory⟩ := by
  intro reached after
  have hstart : s.start w answers input = follow w answers reached (line :: rest) := by
    rw [start, hl, follow_append w answers hc]
  have hword : reached.host.word = latest? before := by
    rw [foldl_next_word, print, hs, Option.or_none]
  refine ⟨hstart, hword, by rw [next_word, hword], fun kind hk => ?_⟩
  have hafter := next_of_command w answers hk reached
  have hasked (request : Query.Request)
      (hr : request ∈ (reached.reaction w answers (.find kind none)).requests) :
      latest? before = some request.symbol := by
    rw [← hword]
    exact word_of_mem_requests w answers hr
  have hrequests : after.requests =
      reached.requests ++ (reached.reaction w answers (.find kind none)).requests :=
    congrArg requests hafter
  refine ⟨?_, ?_, ⟨_, hrequests, hasked⟩, fun hn => ?_, fun word directory notices hn hs hr => ?_⟩
  · rw [hstart, follow_cons_continues w answers (continues_of_command? hk)]
  · have hline : (reached.prepare (.find kind none)).transcript =
        reached.transcript ++ promptLine kind (latest? before) := by
      rw [prepare, print, hword, prompt_eq_promptLine kind fun _ => inked_of_latest?]
    refine ⟨String.join ((reached.reaction w answers (.find kind none)).events.map render), ?_⟩
    rw [← hline]
    exact congrArg transcript hafter
  · have hnone : (reached.reaction w answers (.find kind none)).requests = [] := by
      refine List.eq_nil_iff_forall_not_mem.mpr fun request hr => ?_
      cases hn.symm.trans (hasked request hr)
    rwa [hnone, Array.appendList_nil] at hrequests
  · have hreached : reached.host.word = some word := hword.trans hn
    rw [hrequests, requests_of_word w answers hreached (inked_of_latest? hn) hs hr]
    rfl

end Session
end Terminal

namespace Sample

open Text.Utf8 (encode)

def asking : List Bytes :=
  [encode "change-text x y\n", encode "select 1\n", encode "find-callers\n"]

end Sample

namespace Terminal.Session

theorem default_symbol_of_unsupported :
    ∃ (reached after : Session) (told : String),
      Sample.session.start Sample.world Sample.answers Sample.asking.flatten =
        follow Sample.world Sample.answers after [] ∧
      reached.host.word = some "x y" ∧
      after.transcript = reached.transcript ++
        "Find functions calling this function [default x y]: x y\n" ++ told ++ promptText ∧
      after.requests = #[⟨.callers, "x y", "/p"⟩] := by
  have hl : lines Sample.asking.flatten = Sample.asking.take 2 ++ Sample.asking[2] :: [] := by
    decide +kernel
  have hc : ∀ earlier ∈ Sample.asking.take 2, Continues earlier := by
    rw [Sample.asking, List.take_succ_cons, List.forall_mem_cons]
    exact ⟨⟨"change-text x y", by decide +kernel⟩, by simpa using ⟨"select 1", by decide +kernel⟩⟩
  have hlatest : latest? (Sample.asking.take 2) = some "x y" := by decide +kernel
  have hprompt : promptLine .callers (some "x y") =
      "Find functions calling this function [default x y]: x y\n" := by
    decide +kernel
  have hs : Sample.session.host.word = none := rfl
  obtain ⟨-, hword, -, hfind⟩ := default_symbol Sample.world Sample.answers hs hl hc
  obtain ⟨hstart, ⟨told, htold⟩, -⟩ := hfind .callers (by decide +kernel)
  rw [hlatest] at hword htold
  rw [hprompt] at htold
  exact ⟨_, _, told, hstart, hword, htold, by decide +kernel⟩

end Terminal.Session
end Xref
