import Xref.Json.Token
import Xref.Numeral

/-!
# JSON values

A value is built from tokens with an explicit stack of what is open, so its nesting has no limit.
A list of named fields is read from an object or, in order, from an array.
-/

namespace Xref

/-- A string without a text, and a name without one, holds a lone surrogate or bytes that are no
UTF-8. -/
inductive Json where
  | null
  | bool (value : Bool)
  | number (literal : String)
  | string (text : Option String)
  | array (items : List Json)
  | object (members : List (Option String × Json))
  deriving Repr

namespace Json

/-- A container that a value is being read for: what it holds already, the latest first. -/
inductive Frame where
  | items (done : List Json)
  | member (done : List (Option String × Json)) (name : Option String)

/-- What a reader expects next. Only straight after an opening bracket may its partner follow. -/
inductive Reader where
  | atValue (stack : List Frame) (fresh : Bool)
  | atName (done : List (Option String × Json)) (stack : List Frame) (fresh : Bool)
  | atColon (done : List (Option String × Json)) (name : Option String) (stack : List Frame)
  | afterItem (done : List Json) (stack : List Frame)
  | afterMember (done : List (Option String × Json)) (stack : List Frame)
  | atEnd (value : Json)

def Reader.complete (value : Json) : List Frame → Reader
  | [] => .atEnd value
  | .items done :: stack => .afterItem (value :: done) stack
  | .member done name :: stack => .afterMember ((name, value) :: done) stack

def Reader.step : Reader → Token → Option Reader
  | .atValue stack fresh, token =>
    match token with
    | .null => some (complete .null stack)
    | .bool value => some (complete (.bool value) stack)
    | .number literal => some (complete (.number literal) stack)
    | .string text => some (complete (.string text) stack)
    | .openBracket => some (.atValue (.items [] :: stack) true)
    | .openBrace => some (.atName [] stack true)
    | .closeBracket =>
      match fresh, stack with
      | true, .items done :: stack => some (complete (.array done.reverse) stack)
      | _, _ => none
    | _ => none
  | .atName done stack fresh, token =>
    match token with
    | .string name => some (.atColon done name stack)
    | .closeBrace => if fresh then some (complete (.object done.reverse) stack) else none
    | _ => none
  | .atColon done name stack, token =>
    if token = .colon then some (.atValue (.member done name :: stack) false) else none
  | .afterItem done stack, token =>
    match token with
    | .comma => some (.atValue (.items done :: stack) false)
    | .closeBracket => some (complete (.array done.reverse) stack)
    | _ => none
  | .afterMember done stack, token =>
    match token with
    | .comma => some (.atName done stack false)
    | .closeBrace => some (complete (.object done.reverse) stack)
    | _ => none
  | .atEnd _, _ => none

def Reader.run (reader : Reader) : List Token → Option Json
  | [] =>
    match reader with
    | .atEnd value => some value
    | _ => none
  | token :: rest =>
    match reader.step token with
    | some reader => reader.run rest
    | none => none

def ofTokens? (tokens : List Token) : Option Json := (Reader.atValue [] false).run tokens

def parse? (text : String) : Option Json :=
  (tokens? (text.toList.map .scalar)).bind ofTokens?

/-- Bytes that are no UTF-8 are accepted where the string that holds them is ignored. -/
def parseBytes? (bytes : Bytes) : Option Json :=
  (tokens? (Text.Utf8.segments bytes)).bind ofTokens?

-- ---------------------------------------------------------------------------
-- Typed reading
-- ---------------------------------------------------------------------------

def text? : Json → Option String
  | string text => text
  | _ => none

/-- A plain integer below the limit. A sign, a fraction or an exponent makes it another number. -/
def natural? (limit : Nat) : Json → Option Nat
  | number literal => Numeral.digits? limit literal.toList
  | _ => none

def single? : List Json → Option (Option Json)
  | [] => some none
  | [value] => some (some value)
  | _ => none

/-- The values of the named fields, in the order of the names. Members of other names are
ignored, but their names have to be text. An array may end early. -/
def fields? (names : List String) : Json → Option (List (Option Json))
  | object members =>
    if members.all (·.1.isSome) then
      names.mapM fun name => single? ((members.filter (·.1 = some name)).map (·.2))
    else none
  | array items =>
    if items.length ≤ names.length then
      some (items.map some ++ List.replicate (names.length - items.length) none)
    else none
  | _ => none

end Json
end Xref
