import Xref.SystemError

/-!
# How a query fails

The causes that stop a query from giving output, and how the end of the query program is worded.
-/

namespace Xref.Query

/-- An exit code is one byte. -/
inductive ExitStatus where
  | exited (code : UInt8)
  | signaled (number : Nat) (coreDumped : Bool := false)
  deriving DecidableEq, Repr

namespace ExitStatus

def success (status : ExitStatus) : Bool := status = .exited 0

def signalName? : Nat → Option String
  | 1 => some "SIGHUP"
  | 2 => some "SIGINT"
  | 3 => some "SIGQUIT"
  | 4 => some "SIGILL"
  | 5 => some "SIGTRAP"
  | 6 => some "SIGABRT"
  | 7 => some "SIGBUS"
  | 8 => some "SIGFPE"
  | 9 => some "SIGKILL"
  | 10 => some "SIGUSR1"
  | 11 => some "SIGSEGV"
  | 12 => some "SIGUSR2"
  | 13 => some "SIGPIPE"
  | 14 => some "SIGALRM"
  | 15 => some "SIGTERM"
  | 16 => some "SIGSTKFLT"
  | 17 => some "SIGCHLD"
  | 18 => some "SIGCONT"
  | 19 => some "SIGSTOP"
  | 20 => some "SIGTSTP"
  | 21 => some "SIGTTIN"
  | 22 => some "SIGTTOU"
  | 23 => some "SIGURG"
  | 24 => some "SIGXCPU"
  | 25 => some "SIGXFSZ"
  | 26 => some "SIGVTALRM"
  | 27 => some "SIGPROF"
  | 28 => some "SIGWINCH"
  | 29 => some "SIGIO"
  | 30 => some "SIGPWR"
  | 31 => some "SIGSYS"
  | _ => none

def describe : ExitStatus → String
  | .exited code => "exit status: " ++ toString code.toNat
  | .signaled number coreDumped =>
    "signal: " ++ toString number ++
      (match signalName? number with
        | some name => " (" ++ name ++ ")"
        | none => "") ++
      (if coreDumped then " (core dumped)" else "")

end ExitStatus

inductive Error where
  | spawnFailed (program : String) (cause : SystemError)
  | readFailed (cause : SystemError)
  /-- The program ended badly and wrote nothing but diagnostics. -/
  | failed (program : String) (status : ExitStatus) (diagnostics : String)
  | noOutput
  deriving DecidableEq, Repr

namespace Error

def message : Error → String
  | .spawnFailed program cause => "failed to start '" ++ program ++ "': " ++ cause.message
  | .readFailed cause => "failed to read query output: " ++ cause.message
  | .failed program status diagnostics =>
    "'" ++ program ++ "' exited with " ++ status.describe ++ ": " ++ diagnostics
  | .noOutput => "query produced no output"

def causes : Error → List String
  | .spawnFailed _ cause | .readFailed cause => [cause.message]
  | .failed .. | .noOutput => []

end Error
end Xref.Query
