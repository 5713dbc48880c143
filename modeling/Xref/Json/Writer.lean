/-!
# JSON text

Objects whose members are strings and integers, and arrays of them, on one line or indented by two
spaces. Other characters than quotes, backslashes and controls are written as they are.
-/

namespace Xref.Json

inductive Scalar where
  | text (value : String)
  | natural (value : Nat)
  deriving DecidableEq, Repr

def hexDigit (n : Nat) : Char := if n < 10 then Char.ofNat (48 + n) else Char.ofNat (87 + n)

def escapeChar (c : Char) : List Char :=
  match c with
  | '"' => ['\\', '"']
  | '\\' => ['\\', '\\']
  | '\x08' => ['\\', 'b']
  | '\t' => ['\\', 't']
  | '\n' => ['\\', 'n']
  | '\x0c' => ['\\', 'f']
  | '\r' => ['\\', 'r']
  | c =>
    if c.toNat < 0x20 then
      ['\\', 'u', '0', '0', hexDigit (c.toNat / 16), hexDigit (c.toNat % 16)]
    else [c]

def quote (text : String) : String :=
  "\"" ++ String.ofList (text.toList.flatMap escapeChar) ++ "\""

def Scalar.write : Scalar → String
  | .text value => quote value
  | .natural value => toString value

abbrev Members := List (String × Scalar)

def compact (members : Members) : String :=
  "\x7b" ++ ",".intercalate (members.map fun (name, value) => quote name ++ ":" ++ value.write) ++
    "\x7d"

/-- An object that stands behind `indent`, which its lines repeat. -/
def pretty (indent : String) (members : Members) : String :=
  "\x7b\n" ++
    ",\n".intercalate
      (members.map fun (name, value) => indent ++ "  " ++ quote name ++ ": " ++ value.write) ++
    "\n" ++ indent ++ "\x7d"

def prettyList : List Members → String
  | [] => "[]"
  | objects => "[\n" ++ ",\n".intercalate (objects.map fun o => "  " ++ pretty "  " o) ++ "\n]"

end Xref.Json
