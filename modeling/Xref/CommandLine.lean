import Xref.CommandLine.Arguments
import Xref.CommandLine.Report
import Xref.Config
import Xref.Record.Json
import Xref.Terminal
import Xref.Text.Lowercase

/-!
# The command

One run of the program: a session, a single query, or a new configuration file. A run is given its
arguments, its standard input and its surroundings, and says what it leaves behind.
-/

namespace Xref

namespace Config

/-- A chunk has at least one byte. -/
def tool (c : Config) : Query.Tool := ⟨c.program, c.databaseFile, max 1 c.chunkSize.toNat⟩

end Config

namespace CommandLine

inductive LogLevel where
  | trace
  | debug
  | info
  | warn
  | error
  deriving DecidableEq, Repr

def LogLevel.ofName? : String → Option LogLevel
  | "trace" => some .trace
  | "debug" => some .debug
  | "info" => some .info
  | "warn" => some .warn
  | "error" => some .error
  | _ => none

/-- What a run leaves behind. The requests were made to `tool`. -/
structure Outcome where
  exitCode : Nat
  output : String := ""
  report : Option Report := none
  tool : Query.Tool := {}
  requests : List Query.Request := []
  world : World

def configReport (e : ConfigError) : Report := ⟨e.message, e.causes⟩

def navigationReport (e : NavigationError) : Report := ⟨e.message, e.causes⟩

-- ---------------------------------------------------------------------------
-- Settings
-- ---------------------------------------------------------------------------

/-- The case of the name does not count. -/
def checkLogLevel (settings : Settings) : Except Report LogLevel :=
  let name := Text.lower (settings.logLevel.getD "warn")
  match LogLevel.ofName? name with
  | some level => .ok level
  | none => .error ⟨"invalid log level: " ++ name, []⟩

/-- The configuration file, with the options on top. -/
def configure (w : World) (settings : Settings) : Except Report Config :=
  match Config.load w settings.config with
  | .error e => .error (configReport e)
  | .ok config =>
    .ok { config with
      databaseDirectory := settings.databaseDirectory.or config.databaseDirectory
      program := settings.program.getD config.program }

def navigator (w : World) (config : Config) : Except Report Navigator :=
  let nav : Navigator :=
    { locator := config.locator, history := { capacity := config.stackCapacity.toNat } }
  match config.databaseDirectory with
  | none => .ok nav
  | some directory =>
    match nav.seed w directory with
    | .ok nav => .ok nav
    | .error e => .error ⟨"invalid database directory " ++ directory, e.message :: e.causes⟩

-- ---------------------------------------------------------------------------
-- Single queries
-- ---------------------------------------------------------------------------

/-- A host for a single query: nothing is opened, and no word is at hand. -/
def batchHost : Host := ⟨"<query>", 0, none⟩

def queryRecords (w : World) (config : Config) (respond : Responder) (command symbol : String) :
    Except Report (List Record) × List Query.Request :=
  match Query.Kind.ofName? command with
  | none => (.error ⟨"unknown command: " ++ command, []⟩, [])
  | some kind =>
    match navigator w config with
    | .error report => (.error report, [])
    | .ok nav =>
      let reaction := nav.find w batchHost respond kind (some symbol)
      let records :=
        match reaction.result with
        | .ok (.jumped record) => .ok [record]
        | .ok (.choices _) => .ok ((reaction.navigator.choices.map (·.records)).getD [])
        | .error .noMatches => .ok []
        | .error e => .error (navigationReport e)
      (records, reaction.requests)

def present (json : Bool) (records : List Record) : String :=
  if json then Json.prettyList (records.map Record.members) ++ "\n"
  else if records.isEmpty then "no matches\n"
  else String.join (records.map fun r => r.row ++ "\n")

-- ---------------------------------------------------------------------------
-- Runs
-- ---------------------------------------------------------------------------

def failed (w : World) (report : Report) : Outcome := { exitCode := 1, report, world := w }

/-- What a session wrote before its input could not be read stays written. -/
def runSession (w : World) (config : Config) (input : Bytes) : Outcome :=
  match navigator w config with
  | .error report => failed w report
  | .ok nav =>
    let (fault, session) := ({ navigator := nav } : Terminal.Session).start w
      (fun _ => config.tool.execute w) input
    let report := fault.map fun f => ⟨"failed to read commands", [f.message]⟩
    { exitCode := if report.isSome then 1 else 0
      output := session.transcript
      report
      tool := config.tool
      requests := session.requests.toList
      world := w }

def runQuery (w : World) (config : Config) (command symbol : String) (json : Bool) : Outcome :=
  match queryRecords w config (config.tool.execute w) command symbol with
  | (.error report, requests) => { failed w report with tool := config.tool, requests }
  | (.ok records, requests) =>
    { exitCode := 0, output := present json records, tool := config.tool, requests, world := w }

/-- The program ends at once and reports nothing, and the tool is killed before it does anything.
What was written before stays written. -/
def brokenOff (w : World) (output : String) : Outcome := { exitCode := 101, output, world := w }

/-- The session at the first request that ends the program, if there is one. -/
def sessionBreakOff? (w : World) (config : Config) (input : Bytes) : Option Terminal.Session :=
  if Query.outgrows config.tool.chunkSize w.program.output then do
    let nav ← (navigator w config).toOption
    (({ navigator := nav } : Terminal.Session).print Terminal.promptText).breakOff? w
      (fun _ => config.tool.execute w) (config.tool.breaksOff w) (Terminal.lines input)
  else none

def attemptSession (w : World) (config : Config) (input : Bytes) : Outcome :=
  match sessionBreakOff? w config input with
  | some session => brokenOff w session.transcript
  | none => runSession w config input

/-- A query writes nothing before its request. -/
def attemptQuery (w : World) (config : Config) (command symbol : String) (json : Bool) : Outcome :=
  let outcome := runQuery w config command symbol json
  if outcome.requests.any (config.tool.breaksOff w) then brokenOff w "" else outcome

def runInitConfig (w : World) : Outcome :=
  match w.workingPath with
  | .error e => failed w ⟨"failed to read working directory", [e.message]⟩
  | .ok directory =>
    match Config.create w directory with
    | (.error e, w) => failed w (configReport e)
    | (.ok path, w) => { exitCode := 0, output := "Created " ++ path ++ "\n", world := w }

/-- The configuration is read in every mode, also where it is not used. -/
def runMode (w : World) (settings : Settings) (mode : Mode) (input : Bytes) : Outcome :=
  match checkLogLevel settings with
  | .error report => failed w report
  | .ok _ =>
    match configure w settings with
    | .error report => failed w report
    | .ok config =>
      match mode with
      | .session => attemptSession w config input
      | .query command symbol json => attemptQuery w config command symbol json
      | .initConfig => runInitConfig w

def versionText : String := "cscope-nav 0.1.0\n"

def usageText : String :=
  "Usage: cscope-nav [OPTIONS] [COMMAND]\n\n" ++
    "Commands:\n" ++
    "  session      Interactive session reading commands from stdin (default)\n" ++
    "  query        Run one query and print its records\n" ++
    "  init-config  Write a default .cscope-nav.json into the current directory\n" ++
    "  help         Print this message\n\n" ++
    "Options:\n" ++
    "  -c, --config <CONFIG>              Configuration file\n" ++
    "  -d, --database-dir <DATABASE_DIR>  Directory containing the database\n" ++
    "      --program <PROGRAM>            Query program to run\n" ++
    "      --log-level <LOG_LEVEL>        trace, debug, info, warn or error\n" ++
    "  -h, --help                         Print help\n" ++
    "  -V, --version                      Print version\n"

/-- Arguments that cannot be understood exit with their own code. -/
def run (w : World) (args : List String) (input : Bytes) : Outcome :=
  match parse args with
  | .rejected => { exitCode := 2, world := w }
  | .version => { exitCode := 0, output := versionText, world := w }
  | .help => { exitCode := 0, output := usageText, world := w }
  | .run settings mode => runMode w settings mode input

end CommandLine
end Xref
