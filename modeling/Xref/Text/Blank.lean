/-!
# White space

The characters with the Unicode property White_Space, and text trimmed and split at them.
-/

namespace Xref.Text

def isBlank (c : Char) : Bool :=
  let n := c.toNat
  (0x09 ≤ n && n ≤ 0x0D) || n = 0x20 || n = 0x85 || n = 0xA0 || n = 0x1680 ||
    (0x2000 ≤ n && n ≤ 0x200A) || n = 0x2028 || n = 0x2029 || n = 0x202F || n = 0x205F ||
    n = 0x3000

def trimChars (cs : List Char) : List Char :=
  ((cs.dropWhile isBlank).reverse.dropWhile isBlank).reverse

def trim (text : String) : String := String.ofList (trimChars text.toList)

/-- Holds of the empty text too. -/
def allBlank (text : String) : Bool := text.toList.all isBlank

/-- The part before the first blank, and the part after it if there is one. -/
def splitBlank (text : String) : String × Option String :=
  let cs := text.toList
  match cs.dropWhile (!isBlank ·) with
  | [] => (text, none)
  | _ :: rest => (String.ofList (cs.takeWhile (!isBlank ·)), some (String.ofList rest))

end Xref.Text
