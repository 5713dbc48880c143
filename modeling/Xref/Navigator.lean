import Xref.Command
import Xref.Failure
import Xref.Listing
import Xref.Query.Tool

/-!
# The navigator

A navigator drives one query from the search for the database to the jump. It remembers the
database directory, the list of matches that waits for a selection and the marks to return to.
A command reacts with a result, with what the host is told and with the requests it made.
-/

namespace Xref

/-- The list of matches to select from, and the directory that it came from. -/
structure Choices where
  directory : String
  records : List Record
  deriving DecidableEq, Repr

structure Navigator where
  locator : Locator
  directory : Option String := none
  choices : Option Choices := none
  history : History
  deriving DecidableEq, Repr

/-- The editor: where its cursor is, and the word there. -/
structure Host where
  buffer : String
  offset : Nat
  word : Option String
  deriving DecidableEq, Repr

def Host.mark (host : Host) : Mark := ⟨host.buffer, host.offset⟩

inductive Event where
  | status (text : String)
  | opened (path : String) (line : UInt32)
  | restored (mark : Mark)
  | choices (records : List Record)
  deriving DecidableEq, Repr

def Host.follow (host : Host) : Event → Host
  | .opened path line => { host with buffer := path, offset := line.toNat }
  | .restored mark => { host with buffer := mark.buffer, offset := mark.offset }
  | .status _ | .choices _ => host

def Host.followAll (host : Host) (events : List Event) : Host := events.foldl Host.follow host

structure Reaction (α : Type) where
  result : Except NavigationError α
  events : List Event := []
  requests : List Query.Request := []
  navigator : Navigator

def Reaction.map (f : α → β) (r : Reaction α) : Reaction β :=
  { r with result := r.result.map f }

inductive Outcome where
  | jumped (record : Record)
  | choices (count : Nat)
  deriving DecidableEq, Repr

abbrev Responder := Query.Request → Except Query.Error Bytes

namespace Navigator

-- ---------------------------------------------------------------------------
-- Directories
-- ---------------------------------------------------------------------------

/-- A tilde in front is the home directory. A name that follows it is looked for there, and does
not name another user. -/
def expandHome (home : String) (path : String) : String :=
  match path.toList with
  | ['~'] => home
  | '~' :: '/' :: rest => home ++ String.ofList ('/' :: rest)
  | '~' :: rest => home ++ "/" ++ String.ofList rest
  | _ => path

def checkDirectory (locator : Locator) (w : World) (text : String) :
    Except DirectoryError String :=
  let path := expandHome w.home (Text.trim text)
  if !Path.isAbsolute path then .error .notAbsolute
  else
    match w.stat path with
    | .error e =>
      if e = .notFound then .error (.doesNotExist path) else .error (.unreadable path e)
    | .ok .regular => .error (.notADirectory path)
    | .ok .directory =>
      if locator.present w path then .ok path else .error (.noDatabase path)

def announcement (directory : String) : Event := .status ("symbol database at: " ++ directory)

/-- A navigator that starts with a directory, which is checked but not announced. -/
def seed (nav : Navigator) (w : World) (text : String) : Except NavigationError Navigator :=
  match checkDirectory nav.locator w text with
  | .ok directory => .ok { nav with directory := some directory }
  | .error e => .error (.directory e)

/-- The remembered directory, or else the nearest one above the working directory, which is then
announced and remembered. -/
def resolve (nav : Navigator) (w : World) : Option (String × List Event) :=
  match nav.directory with
  | some directory => some (directory, [])
  | none =>
    w.workingPath.toOption.bind fun start =>
      (nav.locator.locate? w start).map fun directory => (directory, [announcement directory])

-- ---------------------------------------------------------------------------
-- Jumps
-- ---------------------------------------------------------------------------

/-- Marks where the host is and sends it to a record. A full history is told, but does not keep
the host from going. -/
def jump (nav : Navigator) (host : Host) (directory : String) (record : Record) :
    Navigator × List Event :=
  let mark := host.mark
  let opened := Event.opened (Path.join directory record.file) record.line
  match nav.history.push mark with
  | .ok history =>
    ({ nav with history },
      [.status ("saved offset " ++ toString mark.offset ++ " in " ++ mark.buffer), opened])
  | .error e => (nav, [.status e.message, opened])

-- ---------------------------------------------------------------------------
-- Commands
-- ---------------------------------------------------------------------------

/-- A symbol that is given goes before the word at the cursor. Blank text is no symbol; other text
is kept as it is. -/
def chooseSymbol (symbol word : Option String) : Option String :=
  (symbol.filter (!Text.allBlank ·)).or (word.filter (!Text.allBlank ·))

/-- What the answer to a request leads to, once the old list of matches is gone. -/
def conclude (nav : Navigator) (host : Host) (directory : String)
    (answer : Except Query.Error Bytes) : Except NavigationError Outcome × List Event × Navigator :=
  match answer with
  | .error .noOutput => (.error .noMatches, [], nav)
  | .error e => (.error (.query e), [], nav)
  | .ok output =>
    match Listing.records output with
    | [] => (.error .noMatches, [], nav)
    | [record] =>
      let (nav, events) := nav.jump host directory record
      (.ok (.jumped record), events, nav)
    | records =>
      (.ok (.choices records.length), [.choices records],
        { nav with choices := some ⟨directory, records⟩ })

def find (nav : Navigator) (w : World) (host : Host) (respond : Responder) (kind : Query.Kind)
    (symbol : Option String) : Reaction Outcome :=
  if !kind.supported then { result := .error (.unsupported kind), navigator := nav }
  else
    match nav.resolve w with
    | none => { result := .error .databaseNotFound, navigator := nav }
    | some (directory, notices) =>
      let nav := { nav with directory := some directory }
      match chooseSymbol symbol host.word with
      | none => { result := .error .emptySymbol, events := notices, navigator := nav }
      | some symbol =>
        let request : Query.Request := ⟨kind, symbol, directory⟩
        let (result, events, nav) :=
          conclude { nav with choices := none } host directory (respond request)
        { result, events := notices ++ events, requests := [request], navigator := nav }

/-- A reaction is made of the answers to the requests that it names, and of no other. -/
theorem find_congr {nav : Navigator} {w : World} {host : Host} {kind : Query.Kind}
    {symbol : Option String} {first second : Responder}
    (h : ∀ request ∈ (nav.find w host first kind symbol).requests,
      first request = second request) :
    nav.find w host first kind symbol = nav.find w host second kind symbol := by
  unfold find at h ⊢
  split
  · rfl
  next hk =>
  rw [if_neg hk] at h
  cases hr : nav.resolve w with
  | none => rfl
  | some found =>
    cases hs : chooseSymbol symbol host.word with
    | none => rfl
    | some chosen =>
      have hanswer : first ⟨kind, chosen, found.1⟩ = second ⟨kind, chosen, found.1⟩ :=
        h _ (by simp [hr, hs])
      simp only [hanswer]

/-- The list stays, so that another entry may be selected later. -/
def select (nav : Navigator) (host : Host) (index : Nat) : Reaction Record :=
  match nav.choices with
  | none => { result := .error (.selectionOutOfRange index 0), navigator := nav }
  | some choices =>
    match choices.records[index]? with
    | none =>
      { result := .error (.selectionOutOfRange index choices.records.length), navigator := nav }
    | some record =>
      let (nav, events) := nav.jump host choices.directory record
      { result := .ok record, events, navigator := nav }

def popMark (nav : Navigator) : Reaction Mark :=
  match nav.history.pop with
  | .error e => { result := .error (.history e), navigator := nav }
  | .ok (mark, history) =>
    { result := .ok mark
      events :=
        [.status ("popped offset " ++ toString mark.offset ++ " in " ++ mark.buffer),
          .restored mark]
      navigator := { nav with history } }

def setDirectory (nav : Navigator) (w : World) (text : String) : Reaction String :=
  match checkDirectory nav.locator w text with
  | .error e => { result := .error (.directory e), navigator := nav }
  | .ok directory =>
    { result := .ok directory
      events := [announcement directory]
      navigator := { nav with directory := some directory } }

def dispatch (nav : Navigator) (w : World) (host : Host) (respond : Responder) :
    Command → Reaction Unit
  | .find kind symbol => (nav.find w host respond kind symbol).map fun _ => ()
  | .select index => (nav.select host index).map fun _ => ()
  | .popMark => nav.popMark.map fun _ => ()
  | .setDirectory text => (nav.setDirectory w text).map fun _ => ()

def run (nav : Navigator) (w : World) (host : Host) (respond : Responder) (command : Command) :
    Reaction Unit :=
  let reaction := nav.dispatch w host respond command
  match reaction.result with
  | .ok () => reaction
  | .error e => { reaction with events := reaction.events ++ [.status e.message] }

theorem run_congr {nav : Navigator} {w : World} {host : Host} {command : Command}
    {first second : Responder}
    (h : ∀ request ∈ (nav.run w host first command).requests, first request = second request) :
    nav.run w host first command = nav.run w host second command := by
  have hrequests : (nav.run w host first command).requests =
      (nav.dispatch w host first command).requests := by
    unfold run
    dsimp only
    split <;> rfl
  rw [hrequests] at h
  have hdispatch :
      nav.dispatch w host first command = nav.dispatch w host second command := by
    cases command with
    | find kind symbol => exact congrArg (Reaction.map _) (find_congr h)
    | select | popMark | setDirectory => rfl
  rw [run, hdispatch, run]

end Navigator
end Xref
