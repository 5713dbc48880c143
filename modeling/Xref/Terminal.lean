import Xref.Navigator

/-!
# The terminal session

A session reads a command from each line and writes what happens. Its host is a terminal, whose
buffer is the file opened last. Lines are read until the input ends, a line asks to quit, or a
line is not UTF-8.
-/

namespace Xref.Terminal

def promptText : String := "cscope> "

def scratch : Host := ⟨"*scratch*", 0, none⟩

def help : String :=
  "commands:\n" ++
    String.join ((Query.Kind.all.filter (·.supported)).map fun kind =>
      "  " ++ Text.alignLeft 24 kind.name ++ " [symbol]  " ++ kind.description ++ "\n") ++
    "  select                   <n>       jump to entry n of the last list\n" ++
    "  pop-navigation-mark                return to the previous location\n" ++
    "  set-database-directory   <dir>     use the database in dir\n" ++
    "  help | quit\n"

-- ---------------------------------------------------------------------------
-- Events
-- ---------------------------------------------------------------------------

def rows (records : List Record) : List String :=
  records.zipIdx.map fun (record, i) =>
    Text.alignRight 3 (toString (i + 1)) ++ "  " ++ record.row ++ "\n"

def render : Event → String
  | .status text => "[" ++ text ++ "]\n"
  | .opened path line => "-> " ++ path ++ ":" ++ toString line ++ "\n"
  | .restored mark => "<- " ++ mark.buffer ++ ":" ++ toString mark.offset ++ "\n"
  | .choices records => String.join (rows records)

-- ---------------------------------------------------------------------------
-- Lines
-- ---------------------------------------------------------------------------

inductive Entry where
  | blank
  | quit
  | help
  | command (command : Command)
  | unknown (error : UnknownCommand)
  deriving DecidableEq, Repr

def Entry.ofLine (line : String) : Entry :=
  let line := Text.trim line
  if line.isEmpty then .blank
  else if line = "quit" ∨ line = "exit" then .quit
  else if line = "help" then .help
  else
    match Command.parse line with
    | .ok c => .command c
    | .error e => .unknown e

/-- The lines of the input, each with the newline that ends it. -/
def lines (input : Bytes) : List Bytes :=
  input.foldr (fun b lines =>
      if b = Listing.newline then [b] :: lines
      else
        match lines with
        | [] => [[b]]
        | line :: rest => (b :: line) :: rest)
    []

def carriageReturn : UInt8 := 0x0D

/-- A line without its end, which is a newline that a carriage return may precede. -/
def chomp (line : Bytes) : Bytes :=
  match line.reverse with
  | last :: rest =>
    if last = Listing.newline then
      if rest.head? = some carriageReturn then rest.tail.reverse else rest.reverse
    else line
  | [] => []

-- ---------------------------------------------------------------------------
-- Sessions
-- ---------------------------------------------------------------------------

/-- The requests stand in the order in which they were made. -/
structure Session where
  navigator : Navigator
  host : Host := scratch
  requests : Array Query.Request := #[]
  transcript : String := ""
  deriving DecidableEq, Repr

/-- Answers each request by how many were made before it. -/
abbrev Answers := Nat → Responder

namespace Session

def print (s : Session) (text : String) : Session := { s with transcript := s.transcript ++ text }

def run (s : Session) (w : World) (answers : Answers) (command : Command) : Session :=
  let reaction := s.navigator.run w s.host (answers s.requests.size) command
  { navigator := reaction.navigator
    host := s.host.followAll reaction.events
    requests := s.requests ++ reaction.requests
    transcript := s.transcript ++ String.join (reaction.events.map render) }

/-- A symbol becomes the word at the cursor before it is looked up. A command that leaves it out
shows the word that it takes. -/
def prepare (s : Session) : Command → Session
  | .find _ (some symbol) => { s with host := { s.host with word := some symbol } }
  | .find kind none => s.print (kind.prompt s.host.word ++ s.host.word.getD "" ++ "\n")
  | _ => s

def enter (s : Session) (w : World) (answers : Answers) : Entry → Session
  | .blank | .quit => s
  | .help => s.print Terminal.help
  | .command command => (s.prepare command).run w answers command
  | .unknown e => s.print (render (.status e.message))

/-- Ends with what keeps the next line from being read, if the input did not just end. -/
def follow (w : World) (answers : Answers) (s : Session) :
    List Bytes → Option Text.Utf8.Fault × Session
  | [] => (none, s.print "\n")
  | line :: rest =>
    match Text.Utf8.decode (chomp line) with
    | .error fault => (some fault, s)
    | .ok text =>
      match Entry.ofLine text with
      | .quit => (none, s.print "\n")
      | entry => follow w answers ((s.enter w answers entry).print promptText) rest

def start (s : Session) (w : World) (answers : Answers) (input : Bytes) :
    Option Text.Utf8.Fault × Session :=
  follow w answers (s.print promptText) (lines input)

-- ---------------------------------------------------------------------------
-- Sessions that break off
-- ---------------------------------------------------------------------------

/-- What is written before the request of a command is made. -/
def approach (s : Session) (w : World) (command : Command) : Session :=
  let s := s.prepare command
  let notices := ((s.navigator.resolve w).map (·.2)).getD []
  s.print (String.join (notices.map render))

/-- The session at the first request that ends the whole program, if there is one. -/
def breakOff? (w : World) (answers : Answers) (fatal : Query.Request → Bool) (s : Session) :
    List Bytes → Option Session
  | [] => none
  | line :: rest =>
    match Text.Utf8.decode (chomp line) with
    | .error _ => none
    | .ok text =>
      match Entry.ofLine text with
      | .quit => none
      | .command command =>
        let next := s.enter w answers (.command command)
        if (next.requests.toList.drop s.requests.size).any fatal then some (s.approach w command)
        else breakOff? w answers fatal (next.print promptText) rest
      | entry => breakOff? w answers fatal ((s.enter w answers entry).print promptText) rest

end Session
end Xref.Terminal
