/-!
# Command line arguments

Options come before the command. An option's value is joined to it or is the next argument, which
may not look like an option then. The first fault decides, and so does the first call for help or
the version.
-/

namespace Xref.CommandLine

inductive Setting where
  | config
  | databaseDirectory
  | program
  | logLevel
  deriving DecidableEq, Repr

def Setting.ofName? : String → Option Setting
  | "config" => some .config
  | "database-dir" => some .databaseDirectory
  | "program" => some .program
  | "log-level" => some .logLevel
  | _ => none

def Setting.ofLetter? : Char → Option Setting
  | 'c' => some .config
  | 'd' => some .databaseDirectory
  | _ => none

/-- Paths may not be empty. -/
def Setting.accepts : Setting → String → Bool
  | .config, value | .databaseDirectory, value => !value.isEmpty
  | .program, _ | .logLevel, _ => true

structure Settings where
  config : Option String := none
  databaseDirectory : Option String := none
  program : Option String := none
  logLevel : Option String := none
  deriving DecidableEq, Repr

namespace Settings

def get? (s : Settings) : Setting → Option String
  | .config => s.config
  | .databaseDirectory => s.databaseDirectory
  | .program => s.program
  | .logLevel => s.logLevel

def put (s : Settings) (value : String) : Setting → Settings
  | .config => { s with config := some value }
  | .databaseDirectory => { s with databaseDirectory := some value }
  | .program => { s with program := some value }
  | .logLevel => { s with logLevel := some value }

/-- No option may be given twice. -/
def set? (s : Settings) (setting : Setting) (value : String) : Option Settings :=
  if (s.get? setting).isNone && setting.accepts value then some (s.put value setting) else none

end Settings

inductive Mode where
  | session
  | query (command symbol : String) (json : Bool)
  | initConfig
  deriving DecidableEq, Repr

inductive Invocation where
  | run (settings : Settings) (mode : Mode)
  | version
  | help
  | rejected
  deriving DecidableEq, Repr

/-- What an argument looks like. A lone dash is a plain word. -/
inductive Word where
  | plain
  | endOfOptions
  | long (name : String) (value : Option String)
  | short (letter : Char) (rest : List Char)
  deriving DecidableEq, Repr

def Word.ofText (text : String) : Word :=
  match text.toList with
  | ['-', '-'] => .endOfOptions
  | '-' :: '-' :: cs =>
    .long (String.ofList (cs.takeWhile (· ≠ '=')))
      (match cs.dropWhile (· ≠ '=') with
        | [] => none
        | _ :: value => some (String.ofList value))
  | '-' :: letter :: rest => .short letter rest
  | _ => .plain

/-- A value that is joined to a letter, with or without an equals sign. -/
def joined? : List Char → Option String
  | [] => none
  | '=' :: value => some (String.ofList value)
  | value => some (String.ofList value)

def isHelp : Word → Bool
  | .long "help" none | .short 'h' _ => true
  | _ => false

/-- A command that takes no arguments. -/
def parseBare (invocation : Invocation) : List String → Invocation
  | [] => invocation
  | arg :: rest =>
    let word := Word.ofText arg
    if isHelp word then .help
    else if word = .endOfOptions ∧ rest = [] then invocation
    else .rejected

def parseOperands (settings : Settings) (json : Bool) : List String → Invocation
  | [command, symbol] => .run settings (.query command symbol json)
  | _ => .rejected

/-- The operands read so far stand with the latest first. -/
def parseQuery (settings : Settings) (json : Bool) (operands : List String) :
    List String → Invocation
  | [] => parseOperands settings json operands.reverse
  | arg :: rest =>
    match Word.ofText arg with
    | .endOfOptions => parseOperands settings json (operands.reverse ++ rest)
    | .plain =>
      if operands.length < 2 then parseQuery settings json (arg :: operands) rest else .rejected
    | .long "json" none => if json then .rejected else parseQuery settings true operands rest
    | word => if isHelp word then .help else .rejected

def commandNames : List String := ["session", "query", "init-config", "help"]

/-- Help is given on one command at most, since no command has commands of its own. -/
def parseHelp : List String → Invocation
  | [] => .help
  | [name] => if commandNames.contains name then .help else .rejected
  | _ => .rejected

def parseCommand (settings : Settings) (name : String) (rest : List String) : Invocation :=
  match name with
  | "session" => parseBare (.run settings .session) rest
  | "query" => parseQuery settings false [] rest
  | "init-config" => parseBare (.run settings .initConfig) rest
  | "help" => parseHelp rest
  | _ => .rejected

/-- An option that waits for its value takes the next argument. -/
def parseFrom (settings : Settings) (waiting : Option Setting) : List String → Invocation
  | [] => if waiting.isSome then .rejected else .run settings .session
  | arg :: rest =>
    let take (setting : Setting) (value : Option String) : Invocation :=
      match value with
      | none => parseFrom settings (some setting) rest
      | some value =>
        match settings.set? setting value with
        | some settings => parseFrom settings none rest
        | none => .rejected
    match waiting, Word.ofText arg with
    | some setting, .plain => take setting (some arg)
    | some _, _ => .rejected
    | none, .plain => parseCommand settings arg rest
    | none, .endOfOptions => if rest = [] then .run settings .session else .rejected
    | none, .long "help" none => .help
    | none, .long "version" none => .version
    | none, .long name value =>
      match Setting.ofName? name with
      | some setting => take setting value
      | none => .rejected
    | none, .short 'h' _ => .help
    | none, .short 'V' _ => .version
    | none, .short letter value =>
      match Setting.ofLetter? letter with
      | some setting => take setting (joined? value)
      | none => .rejected

def parse (args : List String) : Invocation := parseFrom {} none args

end Xref.CommandLine
