import Xref.Text.Utf8

/-!
# JSON tokens

The lexical grammar of JSON, read one character at a time. A number keeps its literal. A string is
decoded; one whose escapes name a surrogate without its partner, or which holds bytes that are no
UTF-8, is a token without a text.
-/

namespace Xref.Json

inductive Token where
  | openBrace
  | closeBrace
  | openBracket
  | closeBracket
  | colon
  | comma
  | null
  | bool (value : Bool)
  | number (literal : String)
  | string (text : Option String)
  deriving DecidableEq, Repr

-- ---------------------------------------------------------------------------
-- Numbers
-- ---------------------------------------------------------------------------

inductive NumberPart where
  | minus
  | zero
  | whole
  | point
  | fraction
  | exponent
  | sign
  | power
  deriving DecidableEq, Repr

/-- The part that a character continues the number with. A zero in front takes no more digits. -/
def NumberPart.next? (part : NumberPart) (c : Char) : Option NumberPart :=
  match part with
  | .minus => if c = '0' then some .zero else if c.isDigit then some .whole else none
  | .zero =>
    if c = '.' then some .point else if c = 'e' || c = 'E' then some .exponent else none
  | .whole =>
    if c.isDigit then some .whole else if c = '.' then some .point
    else if c = 'e' || c = 'E' then some .exponent else none
  | .point => if c.isDigit then some .fraction else none
  | .fraction =>
    if c.isDigit then some .fraction else if c = 'e' || c = 'E' then some .exponent else none
  | .exponent =>
    if c = '+' || c = '-' then some .sign else if c.isDigit then some .power else none
  | .sign | .power => if c.isDigit then some .power else none

def NumberPart.complete : NumberPart → Bool
  | .zero | .whole | .fraction | .power => true
  | _ => false

-- ---------------------------------------------------------------------------
-- Strings
-- ---------------------------------------------------------------------------

/-- The inside of a string: the text so far, its latest character first, and an upper surrogate
that waits for its partner. -/
structure Quoted where
  text : Option (List Char) := some []
  upper : Option Nat := none
  deriving DecidableEq, Repr

def Quoted.broken : Quoted := ⟨none, none⟩

def Quoted.add (q : Quoted) (c : Char) : Quoted :=
  if q.upper.isSome then .broken else ⟨q.text.map (c :: ·), none⟩

def Quoted.addUnit (q : Quoted) (unit : Nat) : Quoted :=
  match q.upper with
  | some upper =>
    if 0xDC00 ≤ unit ∧ unit < 0xE000 then
      ⟨q.text.map (Char.ofNat (0x10000 + (upper - 0xD800) * 0x400 + (unit - 0xDC00)) :: ·), none⟩
    else .broken
  | none =>
    if 0xD800 ≤ unit ∧ unit < 0xDC00 then ⟨q.text, some unit⟩
    else if 0xDC00 ≤ unit ∧ unit < 0xE000 then .broken
    else q.add (Char.ofNat unit)

def Quoted.token (q : Quoted) : Token :=
  match q.upper with
  | some _ => .string none
  | none => .string (q.text.map fun cs => String.ofList cs.reverse)

def unescape? : Char → Option Char
  | '"' => some '"'
  | '\\' => some '\\'
  | '/' => some '/'
  | 'b' => some '\x08'
  | 'f' => some '\x0c'
  | 'n' => some '\n'
  | 'r' => some '\r'
  | 't' => some '\t'
  | _ => none

def hexValue? (c : Char) : Option Nat :=
  if c.isDigit then some (c.toNat - 48)
  else if 'a' ≤ c ∧ c ≤ 'f' then some (c.toNat - 87)
  else if 'A' ≤ c ∧ c ≤ 'F' then some (c.toNat - 55)
  else none

-- ---------------------------------------------------------------------------
-- The lexer
-- ---------------------------------------------------------------------------

inductive Mode where
  | between
  /-- The letters of a literal name, the latest first. -/
  | name (letters : List Char)
  | number (part : NumberPart) (literal : List Char)
  | quoted (inside : Quoted)
  | escape (inside : Quoted)
  /-- So many digits of a unit read, with this value. -/
  | unit (inside : Quoted) (digits value : Nat)
  deriving DecidableEq, Repr

/-- The tokens found stand the latest first. -/
structure Lexer where
  mode : Mode := .between
  found : List Token := []
  deriving DecidableEq, Repr

def isBlank (c : Char) : Bool := c = ' ' || c = '\t' || c = '\n' || c = '\r'

def isLetter (c : Char) : Bool := 'a' ≤ c && c ≤ 'z'

def punctuation? : Char → Option Token
  | '{' => some .openBrace
  | '}' => some .closeBrace
  | '[' => some .openBracket
  | ']' => some .closeBracket
  | ':' => some .colon
  | ',' => some .comma
  | _ => none

def named? (letters : List Char) : Option Token :=
  if letters = "llun".toList then some .null
  else if letters = "eurt".toList then some (.bool true)
  else if letters = "eslaf".toList then some (.bool false)
  else none

def Lexer.enter (found : List Token) (c : Char) : Option Lexer :=
  if isBlank c then some ⟨.between, found⟩
  else if c = '"' then some ⟨.quoted {}, found⟩
  else if c = '-' then some ⟨.number .minus [c], found⟩
  else if c = '0' then some ⟨.number .zero [c], found⟩
  else if c.isDigit then some ⟨.number .whole [c], found⟩
  else if isLetter c then some ⟨.name [c], found⟩
  else (punctuation? c).map fun token => ⟨.between, token :: found⟩

def Lexer.step (lexer : Lexer) (c : Char) : Option Lexer :=
  let found := lexer.found
  match lexer.mode with
  | .between => enter found c
  | .name letters =>
    if isLetter c then some ⟨.name (c :: letters), found⟩
    else (named? letters).bind fun token => enter (token :: found) c
  | .number part literal =>
    match part.next? c with
    | some part => some ⟨.number part (c :: literal), found⟩
    | none =>
      if part.complete then enter (.number (String.ofList literal.reverse) :: found) c else none
  | .quoted inside =>
    if c = '"' then some ⟨.between, inside.token :: found⟩
    else if c = '\\' then some ⟨.escape inside, found⟩
    else if c.toNat < 0x20 then none
    else some ⟨.quoted (inside.add c), found⟩
  | .escape inside =>
    if c = 'u' then some ⟨.unit inside 0 0, found⟩
    else (unescape? c).map fun c => ⟨.quoted (inside.add c), found⟩
  | .unit inside digits value =>
    (hexValue? c).map fun digit =>
      if digits = 3 then ⟨.quoted (inside.addUnit (value * 16 + digit)), found⟩
      else ⟨.unit inside (digits + 1) (value * 16 + digit), found⟩

/-- Bytes that are no character may only stand inside a string. -/
def Lexer.spoil (lexer : Lexer) : Option Lexer :=
  match lexer.mode with
  | .quoted _ => some ⟨.quoted .broken, lexer.found⟩
  | _ => none

def Lexer.read (lexer : Lexer) : Text.Utf8.Segment → Option Lexer
  | .scalar c => lexer.step c
  | .illFormed _ | .unfinished _ => lexer.spoil

def Lexer.close (lexer : Lexer) : Option (List Token) :=
  match lexer.mode with
  | .between => some lexer.found.reverse
  | .name letters => (named? letters).map fun token => (token :: lexer.found).reverse
  | .number part literal =>
    if part.complete then
      some (.number (String.ofList literal.reverse) :: lexer.found).reverse
    else none
  | _ => none

def Lexer.run (lexer : Lexer) : List Text.Utf8.Segment → Option (List Token)
  | [] => lexer.close
  | segment :: rest =>
    match lexer.read segment with
    | some lexer => lexer.run rest
    | none => none

def tokens? (segments : List Text.Utf8.Segment) : Option (List Token) :=
  ({} : Lexer).run segments

end Xref.Json
