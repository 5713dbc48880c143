import Xref.History
import Xref.Query.Error
import Xref.Query.Kind

/-!
# How a command fails

Every failure has one message, which doubles as the status shown to the user.
-/

namespace Xref

inductive DirectoryError where
  | notAbsolute
  | doesNotExist (path : String)
  | unreadable (path : String) (cause : SystemError)
  | notADirectory (path : String)
  | noDatabase (path : String)
  deriving DecidableEq, Repr

namespace DirectoryError

def message : DirectoryError → String
  | .notAbsolute => "please provide an absolute path"
  | .doesNotExist path => "symbol directory doesn't exist: " ++ path
  | .unreadable path cause =>
    "unknown error checking symbol directory " ++ path ++ ": " ++ cause.message
  | .notADirectory path => "symbol path is not a directory: " ++ path
  | .noDatabase path => "no symbol file in " ++ path ++ " directory"

def causes : DirectoryError → List String
  | .unreadable _ cause => [cause.message]
  | _ => []

end DirectoryError

inductive NavigationError where
  | databaseNotFound
  | emptySymbol
  | unsupported (kind : Query.Kind)
  | noMatches
  | selectionOutOfRange (index count : Nat)
  | query (error : Query.Error)
  | history (error : HistoryError)
  | directory (error : DirectoryError)
  deriving DecidableEq, Repr

namespace NavigationError

/-- A selection out of range is told by its index, counted from zero. -/
def message : NavigationError → String
  | .databaseNotFound => "no symbol database located; set one with set-database-directory"
  | .emptySymbol => "empty symbol"
  | .unsupported kind => kind.description ++ " not supported"
  | .noMatches => "no matches"
  | .selectionOutOfRange index count =>
    "no result at position " ++ toString index ++ " (" ++ toString count ++ " results)"
  | .query error => "cscope query failed: " ++ error.message
  | .history error => error.message
  | .directory error => error.message

/-- The errors of history and directory speak for themselves; only a query's is a cause. -/
def causes : NavigationError → List String
  | .query error => error.message :: error.causes
  | .directory error => error.causes
  | _ => []

end NavigationError

/-- Anything that ends the program, where it is told in one line. -/
inductive Failure where
  | navigation (error : NavigationError)
  | configuration (text : String)
  | system (error : SystemError)
  deriving DecidableEq, Repr

def Failure.message : Failure → String
  | .navigation error => error.message
  | .configuration text => "configuration error: " ++ text
  | .system error => "IO error: " ++ error.message

end Xref
